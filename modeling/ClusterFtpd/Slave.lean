import ClusterFtpd.Client

/-!
# What a slave does with an upload

`store` is `slave_servicesHandler::Store`: it receives the bytes of a data connection into a buffer,
writes the buffer out whenever it is full and once more at the end of the connection, and answers a
message and a size.  The two are made apart from each other: the message says whether `recv`,
`select` or a full buffer failed, the size is what `stat` finds afterwards.

Everything the system and the network answer the slave is in `StoreCalls`.

`storeLoop_cases` says how the loop ends, and what the file then holds.
-/

namespace ClusterFtpd

/-- The bytes of a file. -/
abbrev Bytes := List UInt8

/-! ### Files -/

/-- A file open for writing. -/
structure OpenFile where
  content : Bytes
  offset : ℕ
  append : Bool

/-- `open` with `O_WRONLY | O_CREAT` and one of the two flags. -/
def openFile (iflags : OpenFlag) (file : Option Bytes) : OpenFile :=
  match iflags with
  | .append => { content := file.getD [], offset := 0, append := true }
  | .trunc => { content := [], offset := 0, append := false }

/-- `write` of some bytes: at the end of the file with `O_APPEND`, else at the offset; a gap before
the offset reads as zeros. -/
def OpenFile.write (f : OpenFile) (bs : Bytes) : OpenFile :=
  let pos := if f.append then f.content.length else f.offset
  if bs = [] then f
  else
    { f with
      content := (f.content ++ List.replicate (pos - f.content.length) 0).take pos ++ bs ++
        f.content.drop (pos + bs.length)
      offset := pos + bs.length }

/-- The next write goes to the end of the file. -/
def OpenFile.AtEnd (f : OpenFile) : Prop := f.append = true ∨ f.offset = f.content.length

theorem OpenFile.AtEnd.pos {f : OpenFile} (h : f.AtEnd) :
    (if f.append then f.content.length else f.offset) = f.content.length := by
  rcases h with h | h
  · rw [if_pos h]
  · rw [h, ite_self]

theorem OpenFile.AtEnd.write {f : OpenFile} (h : f.AtEnd) (bs : Bytes) :
    (f.write bs).content = f.content ++ bs ∧ (f.write bs).AtEnd := by
  unfold OpenFile.write
  by_cases hb : bs = []
  · rw [if_pos hb, hb, List.append_nil]
    exact ⟨rfl, h⟩
  · rw [if_neg hb, h.pos]
    have hcontent : (f.content ++ List.replicate (f.content.length - f.content.length) 0).take
        f.content.length ++ bs ++ f.content.drop (f.content.length + bs.length) =
          f.content ++ bs := by
      rw [Nat.sub_self, List.replicate_zero, List.append_nil, List.take_length,
        List.drop_of_length_le (Nat.le_add_right _ _), List.append_nil]
    refine ⟨hcontent, .inr ?_⟩
    show f.content.length + bs.length = _
    rw [hcontent, List.length_append]

/-- How many of `n` things a call takes that wants `k`: at least one. -/
def takes (k n : ℕ) : ℕ := max 1 (min k n)

theorem takes_pos (k n : ℕ) : 0 < takes k n := by
  unfold takes
  omega

theorem takes_le {n : ℕ} (k : ℕ) (h : 0 < n) : takes k n ≤ n := by
  unfold takes
  omega

/-- `SafeWrite`; `write i` is how much the `i`-th `write` writes, and `none` an error.  A call
that writes anything writes at least one byte. -/
def safeWrite (write : ℕ → Option ℕ) (i : ℕ) (f : OpenFile) (buf : Bytes) : OpenFile × Bool :=
  if _h : buf = [] then (f, true)
  else
    match write i with
    | none => (f, false)
    | some k =>
        safeWrite write (i + 1) (f.write (buf.take (takes k buf.length)))
          (buf.drop (takes k buf.length))
termination_by buf.length
decreasing_by
  have hpos := List.length_pos_of_ne_nil _h
  have htakes := takes_pos k buf.length
  rw [List.length_drop]
  omega

/-- The calls write all of `n` bytes. -/
def writesAll (write : ℕ → Option ℕ) (i n : ℕ) : Bool :=
  if _h : n = 0 then true
  else
    match write i with
    | none => false
    | some k => writesAll write (i + 1) (n - takes k n)
termination_by n
decreasing_by
  have htakes := takes_pos k n
  omega

@[simp] theorem writesAll_zero (write : ℕ → Option ℕ) (i : ℕ) : writesAll write i 0 = true := by
  rw [writesAll, dif_pos rfl]

theorem writesAll_none {write : ℕ → Option ℕ} {i n : ℕ} (hn : n ≠ 0) (hw : write i = none) :
    writesAll write i n = false := by
  rw [writesAll, dif_neg hn, hw]

theorem writesAll_some {write : ℕ → Option ℕ} {i n k : ℕ} (hn : n ≠ 0) (hw : write i = some k) :
    writesAll write i n = writesAll write (i + 1) (n - takes k n) := by
  rw [writesAll, dif_neg hn, hw]

/-- `SafeWrite` appends what the calls have written, and succeeds when that is everything. -/
theorem safeWrite_spec (write : ℕ → Option ℕ) (i : ℕ) (f : OpenFile) (buf : Bytes) (hf : f.AtEnd) :
    (safeWrite write i f buf).2 = writesAll write i buf.length ∧
      (safeWrite write i f buf).1.AtEnd ∧
      ∃ m ≤ buf.length, (safeWrite write i f buf).1.content = f.content ++ buf.take m ∧
        (writesAll write i buf.length = true ↔ m = buf.length) := by
  fun_induction safeWrite write i f buf with
  | case1 i f => exact ⟨by simp, hf, 0, by simp, by simp, by simp⟩
  | case2 i f buf h hw =>
      have hne : buf.length ≠ 0 := fun h0 => h (List.length_eq_zero_iff.mp h0)
      rw [writesAll_none hne hw]
      refine ⟨rfl, hf, 0, Nat.zero_le _, by simp, ?_⟩
      constructor
      · intro h0
        exact absurd h0 (by simp)
      · intro h0
        exact absurd h0.symm hne
  | case3 i f buf h k hw ih =>
      have hne : buf.length ≠ 0 := fun h0 => h (List.length_eq_zero_iff.mp h0)
      have hle := takes_le k (Nat.pos_of_ne_zero hne)
      obtain ⟨hcontent, hend⟩ := hf.write (buf.take (takes k buf.length))
      obtain ⟨hok, hend', m, hm, hc, hall⟩ := ih hend
      rw [List.length_drop] at hok hm hall
      rw [writesAll_some hne hw]
      refine ⟨hok, hend', takes k buf.length + m, by omega, ?_, ?_⟩
      · rw [hc, hcontent, List.append_assoc, List.take_add]
      · rw [hall]
        omega

/-! ### The receiving loop -/

/-- How a data connection ends, after its last byte. -/
inductive Ending where
  | eof | recvFails | selectFails | never
  deriving DecidableEq

/-- What the system answers one `Store`: whether `open`, `lseek` and `stat` succeed, the bytes that
arrive, how many of them each `recv` gives, how the connection ends, and what the `i`-th `write` of
the `j`-th `SafeWrite` writes. -/
structure StoreCalls where
  openOk : Bool
  seekOk : Bool
  incoming : Bytes
  recvs : ℕ → ℕ
  ending : Ending
  writes : ℕ → ℕ → Option ℕ
  statOk : Bool

/-- The end of the loop with `len == 0`: the last `SafeWrite`, whose answer is dropped. -/
def lastWrite (x : StoreCalls) (flushed : ℕ) (f : OpenFile) (pBuffer : Bytes) : Bool × OpenFile :=
  (true, (safeWrite (x.writes flushed) 0 f pBuffer).1)

/-- The loop of `Store`: `pBuffer` is what the buffer holds, `flushed` and `received` count the
calls of `SafeWrite` and `recv`, `rest` is what has not arrived yet.  The result is whether `len`
is not negative, with the file; there is none when the connection never ends. -/
def storeLoop (x : StoreCalls) (uiBufferSize : ℕ) (pBuffer : Bytes) (f : OpenFile)
    (flushed received : ℕ) (rest : Bytes) : Option (Bool × OpenFile) :=
  if _h : rest = [] then
    match x.ending with
    | .eof => some (lastWrite x flushed f pBuffer)
    | .recvFails => some (false, f)
    | .selectFails => some (false, f)
    | .never => none
  else if uiBufferSize ≤ pBuffer.length then
    -- `recv` with no room answers 0, as it does at the end
    some (lastWrite x flushed f pBuffer)
  else
    let len := takes (x.recvs received) (min (uiBufferSize - pBuffer.length) rest.length)
    let filled := pBuffer ++ rest.take len
    if filled.length = uiBufferSize then
      let written := safeWrite (x.writes flushed) 0 f filled
      if written.2 then
        storeLoop x uiBufferSize [] written.1 (flushed + 1) (received + 1) (rest.drop len)
      else some (false, written.1)
    else storeLoop x uiBufferSize filled f flushed (received + 1) (rest.drop len)
termination_by rest.length
decreasing_by
  all_goals
    have hpos := List.length_pos_of_ne_nil _h
    have htakes := takes_pos (x.recvs received) (min (uiBufferSize - pBuffer.length) rest.length)
    rw [List.length_drop]
    omega

/-- The full buffers that `len` bytes fill are all written. -/
def Flushes (x : StoreCalls) (uiBufferSize flushed len : ℕ) : Prop :=
  ∀ j < len / uiBufferSize, writesAll (x.writes (flushed + j)) 0 uiBufferSize = true

/-- The ends of the loop over the bytes `total`, from a file that holds `content`. -/
inductive LoopEnd (x : StoreCalls) (uiBufferSize : ℕ) (content total : Bytes) (flushed : ℕ) :
    Option (Bool × OpenFile) → Prop where
  | failed (f : OpenFile) :
      ¬ Flushes x uiBufferSize flushed total.length ∨ x.ending = .recvFails ∨
        x.ending = .selectFails →
      LoopEnd x uiBufferSize content total flushed (some (false, f))
  | never : Flushes x uiBufferSize flushed total.length → x.ending = .never →
      LoopEnd x uiBufferSize content total flushed none
  | ended (f : OpenFile) (m : ℕ) : Flushes x uiBufferSize flushed total.length → x.ending = .eof →
      m ≤ total.length % uiBufferSize →
      f.content = content ++ total.take (total.length / uiBufferSize * uiBufferSize + m) →
      (writesAll (x.writes (flushed + total.length / uiBufferSize)) 0
        (total.length % uiBufferSize) = true ↔ m = total.length % uiBufferSize) →
      LoopEnd x uiBufferSize content total flushed (some (true, f))

variable {x : StoreCalls} {B : ℕ}

theorem flushes_of_lt {flushed len : ℕ} (h : len < B) : Flushes x B flushed len := by
  intro j hj
  rw [Nat.div_eq_of_lt h] at hj
  omega

/-- The first full buffer, and the others. -/
theorem flushes_add (hB : 0 < B) (flushed len : ℕ) : Flushes x B flushed (B + len) ↔
    writesAll (x.writes flushed) 0 B = true ∧ Flushes x B (flushed + 1) len := by
  unfold Flushes
  rw [Nat.add_comm B len, Nat.add_div_right len hB]
  constructor
  · intro h
    refine ⟨h 0 (Nat.succ_pos _), ?_⟩
    intro j hj
    have hnext := h (j + 1) (Nat.succ_lt_succ hj)
    rwa [Nat.add_assoc, Nat.add_comm 1 j]
  · rintro ⟨hfirst, hrest⟩ j hj
    cases j with
    | zero => exact hfirst
    | succ j =>
        have hnext := hrest j (Nat.lt_of_succ_lt_succ hj)
        rwa [Nat.add_assoc, Nat.add_comm 1 j] at hnext

/-- A full buffer in front of the bytes still to come. -/
theorem LoopEnd.flush {content filled rest : Bytes} {flushed : ℕ}
    {r : Option (Bool × OpenFile)} (hfull : filled.length = B) (hB : 0 < B)
    (hok : writesAll (x.writes flushed) 0 B = true)
    (h : LoopEnd x B (content ++ filled) rest (flushed + 1) r) :
    LoopEnd x B content (filled ++ rest) flushed r := by
  have hlen : (filled ++ rest).length = B + rest.length := by rw [List.length_append, hfull]
  have hdiv : (filled ++ rest).length / B = rest.length / B + 1 := by
    rw [hlen, Nat.add_comm, Nat.add_div_right _ hB]
  have hmod : (filled ++ rest).length % B = rest.length % B := by rw [hlen, Nat.add_mod_left]
  have hflush : Flushes x B flushed (filled ++ rest).length ↔
      Flushes x B (flushed + 1) rest.length := by
    rw [hlen, flushes_add hB]
    exact and_iff_right hok
  cases h with
  | failed f hfail =>
      refine .failed f ?_
      rwa [hflush]
  | never hf hnever => exact .never (hflush.mpr hf) hnever
  | ended f m hf heof hm hcontent hlast =>
      refine .ended f m (hflush.mpr hf) heof (by rwa [hmod]) ?_ ?_
      · have hsplit : (rest.length / B + 1) * B + m = filled.length + (rest.length / B * B + m) := by
          rw [hfull]
          ring
        rw [hcontent, hdiv, hsplit, List.take_length_add_append, List.append_assoc]
      · rw [hmod, hdiv, ← hlast, Nat.add_assoc, Nat.add_comm 1]

/-- **The loop** ends as the flushes and the connection let it. -/
theorem storeLoop_spec (x : StoreCalls) (hB : 0 < B) (pBuffer : Bytes) (f : OpenFile)
    (flushed received : ℕ) (rest : Bytes) (hroom : pBuffer.length < B) (hf : f.AtEnd) :
    LoopEnd x B f.content (pBuffer ++ rest) flushed
      (storeLoop x B pBuffer f flushed received rest) := by
  fun_induction storeLoop x B pBuffer f flushed received rest with
  | case1 pBuffer f flushed received heof =>
      rw [List.append_nil]
      have hdiv : pBuffer.length / B = 0 := Nat.div_eq_of_lt hroom
      have hmod : pBuffer.length % B = pBuffer.length := Nat.mod_eq_of_lt hroom
      obtain ⟨-, -, m, hm, hcontent, hall⟩ := safeWrite_spec (x.writes flushed) 0 f pBuffer hf
      refine .ended _ m (flushes_of_lt hroom) heof (by rwa [hmod]) ?_ ?_
      · rw [hdiv, Nat.zero_mul, Nat.zero_add]
        exact hcontent
      · rw [hdiv, hmod, Nat.add_zero]
        exact hall
  | case2 pBuffer f flushed received hfails => exact .failed f (.inr (.inl hfails))
  | case3 pBuffer f flushed received hfails => exact .failed f (.inr (.inr hfails))
  | case4 pBuffer f flushed received hnever =>
      rw [List.append_nil]
      exact .never (flushes_of_lt hroom) hnever
  | case5 pBuffer f flushed received rest hrest hfull => omega
  | case6 pBuffer f flushed received rest hrest hfull len filled hB' written hok ih =>
      obtain ⟨hall, hend, m, hm, hcontent, hiff⟩ := safeWrite_spec (x.writes flushed) 0 f filled hf
      have hallB : writesAll (x.writes flushed) 0 B = true := by
        rw [← hB', ← hall]
        exact hok
      have hm' : m = filled.length := hiff.mp (by rw [hB']; exact hallB)
      rw [hm', List.take_length] at hcontent
      have hnext := ih hB hend
      rw [List.nil_append, hcontent] at hnext
      have hsplit : pBuffer ++ rest = filled ++ rest.drop len := by
        rw [List.append_assoc, List.take_append_drop]
      rw [hsplit]
      exact hnext.flush hB' hB hallB
  | case7 pBuffer f flushed received rest hrest hfull len filled hB' written hok =>
      refine .failed _ (.inl ?_)
      obtain ⟨hall, -⟩ := safeWrite_spec (x.writes flushed) 0 f filled hf
      have hsplit : (pBuffer ++ rest).length = B + (rest.drop len).length := by
        rw [← hB', ← List.length_append, List.append_assoc, List.take_append_drop]
      rw [hsplit, flushes_add hB]
      rintro ⟨hfirst, -⟩
      rw [hB'] at hall
      exact hok (hall.trans hfirst)
  | case8 pBuffer f flushed received rest hrest hfull len filled hB' ih =>
      have hle : len ≤ B - pBuffer.length := by
        have hpos := List.length_pos_of_ne_nil hrest
        exact (takes_le _ (by omega)).trans (Nat.min_le_left _ _)
      have hlt : filled.length < B := by
        have hfilled : filled.length = pBuffer.length + min len rest.length := by
          rw [List.length_append, List.length_take]
        omega
      have hsplit : pBuffer ++ rest = filled ++ rest.drop len := by
        rw [List.append_assoc, List.take_append_drop]
      rw [hsplit]
      exact ih hlt hf

/-- `slave_servicesHandler::Store`; `valid` tells whether the data socket is one.  The result is the
message and the size, with the file afterwards. -/
def store (x : StoreCalls) (uiBufferSize : ℕ) (restart_at : ℤ) (iflags : OpenFlag) (valid : Bool)
    (file : Option Bytes) : Option (StorRetVal × Option Bytes) :=
  let outcome : Option (Bool × Option Bytes) :=
    if x.openOk then
      if ((0 < restart_at ∧ x.seekOk) ∨ restart_at = 0) ∧ valid then
        (storeLoop x uiBufferSize [] { openFile iflags file with offset := restart_at.toNat } 0 0
          x.incoming).map fun (ok, f) => (ok, some f.content)
      else some (true, some (openFile iflags file).content)
    else some (false, file)
  outcome.map fun (ok, file) =>
    ({ msg := if ok then .line 226 "Transfer complete." else .line 550 "Can't store file."
       size := if x.statOk then (file.map fun b => (b.length : ℤ)).getD (-1) else -1 }, file)

/-! ### What `Store` answers -/

/-- How the connection ends for the loop: without a buffer the first `recv` looks like the end. -/
def StoreCalls.endingFor (x : StoreCalls) (uiBufferSize : ℕ) : Ending :=
  if uiBufferSize = 0 ∧ x.incoming ≠ [] then .eof else x.ending

/-- The loop waits for ever. -/
def Hangs (x : StoreCalls) (uiBufferSize : ℕ) : Prop :=
  Flushes x uiBufferSize 0 x.incoming.length ∧ x.endingFor uiBufferSize = .never

/-- The loop comes to the end of the connection. -/
def Arrives (x : StoreCalls) (uiBufferSize : ℕ) : Prop :=
  Flushes x uiBufferSize 0 x.incoming.length ∧ x.endingFor uiBufferSize = .eof

/-- Everything that arrives goes through the buffer, and the last write, which is not checked, does
not fail. -/
def Delivers (x : StoreCalls) (uiBufferSize : ℕ) : Prop :=
  (uiBufferSize = 0 → x.incoming = []) ∧
    writesAll (x.writes (x.incoming.length / uiBufferSize)) 0
      (x.incoming.length % uiBufferSize) = true

theorem storeLoop_zero (x : StoreCalls) (f : OpenFile) (rest : Bytes) :
    storeLoop x 0 [] f 0 0 rest =
      if rest = [] then
        match x.ending with
        | .eof => some (true, f)
        | .recvFails => some (false, f)
        | .selectFails => some (false, f)
        | .never => none
      else some (true, f) := by
  have hlast : lastWrite x 0 f [] = (true, f) := by
    rw [lastWrite, safeWrite, dif_pos rfl]
  rw [storeLoop]
  by_cases hrest : rest = []
  · rw [dif_pos hrest, if_pos hrest, hlast]
  · rw [dif_neg hrest, if_neg hrest, if_pos (Nat.zero_le _), hlast]

/-- The three ends of the loop of a whole connection. -/
theorem storeLoop_cases (x : StoreCalls) (B : ℕ) {f : OpenFile} (hf : f.AtEnd) :
    (storeLoop x B [] f 0 0 x.incoming = none ∧ Hangs x B) ∨
      (∃ f', storeLoop x B [] f 0 0 x.incoming = some (false, f') ∧ ¬ Hangs x B ∧
        ¬ Arrives x B) ∨
      ∃ f', storeLoop x B [] f 0 0 x.incoming = some (true, f') ∧ ¬ Hangs x B ∧ Arrives x B ∧
        (f'.content = f.content ++ x.incoming ↔ Delivers x B) := by
  rcases Nat.eq_zero_or_pos B with rfl | hB
  · have hflush : Flushes x 0 0 x.incoming.length := by
      intro j hj
      rw [Nat.div_zero] at hj
      omega
    rw [storeLoop_zero]
    by_cases hin : x.incoming = []
    · have hending : x.endingFor 0 = x.ending := if_neg fun h => h.2 hin
      have hdelivers : Delivers x 0 := ⟨fun _ => hin, by rw [hin]; simp⟩
      rw [if_pos hin]
      unfold Hangs Arrives
      rw [hending]
      cases x.ending with
      | eof =>
          refine .inr (.inr ⟨f, rfl, by simp, ⟨hflush, rfl⟩, ?_⟩)
          rw [hin, List.append_nil]
          exact iff_of_true rfl hdelivers
      | recvFails => exact .inr (.inl ⟨f, rfl, by simp, by simp⟩)
      | selectFails => exact .inr (.inl ⟨f, rfl, by simp, by simp⟩)
      | never => exact .inl ⟨rfl, hflush, rfl⟩
    · have hending : x.endingFor 0 = .eof := if_pos ⟨rfl, hin⟩
      rw [if_neg hin]
      unfold Hangs Arrives
      rw [hending]
      refine .inr (.inr ⟨f, rfl, by simp, ⟨hflush, rfl⟩, ?_⟩)
      refine iff_of_false ?_ fun h => hin (h.1 rfl)
      intro heq
      have hlen := congrArg List.length heq
      have hpos := List.length_pos_of_ne_nil hin
      rw [List.length_append] at hlen
      omega
  · have hending : x.endingFor B = x.ending := if_neg fun h => by omega
    have hspec := storeLoop_spec x hB [] f 0 0 x.incoming hB hf
    rw [List.nil_append] at hspec
    generalize storeLoop x B [] f 0 0 x.incoming = r at hspec
    unfold Hangs Arrives
    rw [hending]
    cases hspec with
    | failed f' hfail =>
        refine .inr (.inl ⟨f', rfl, ?_, ?_⟩)
        · rintro ⟨hflush, hend⟩
          rw [hend] at hfail
          simp [hflush] at hfail
        · rintro ⟨hflush, hend⟩
          rw [hend] at hfail
          simp [hflush] at hfail
    | never hflush hnever => exact .inl ⟨rfl, hflush, hnever⟩
    | ended f' m hflush heof hm hcontent hlast =>
        refine .inr (.inr ⟨f', rfl, ?_, ⟨hflush, heof⟩, ?_⟩)
        · rintro ⟨-, hend⟩
          rw [heof] at hend
          exact absurd hend (by decide)
        · have hdiv := Nat.div_add_mod' x.incoming.length B
          rw [hcontent, List.append_right_inj, List.take_eq_self_iff, Delivers]
          rw [Nat.zero_add] at hlast
          rw [hlast]
          constructor
          · intro hle
            exact ⟨fun h0 => by omega, by omega⟩
          · rintro ⟨-, hm'⟩
            omega

end ClusterFtpd
