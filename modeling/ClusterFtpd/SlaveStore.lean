import ClusterFtpd.Slave

/-!
# What a reply of 226 to an upload means

`store_right_iff` says when the message 226 of `Store` means that everything that arrived is in the
file, and that no step on the way to it failed: the answer of the last `SafeWrite` is dropped, and a
socket that is not one, a seek that fails and a negative offset leave `len` at 0.
-/

namespace ClusterFtpd

/-- The reply of a `Store` that reports success. -/
def storedMsg : Reply := .line 226 "Transfer complete."

/-- The offset can be reached. -/
def StoreCalls.Seeks (x : StoreCalls) (restart_at : ℤ) : Prop :=
  (0 < restart_at ∧ x.seekOk = true) ∨ restart_at = 0

/-- One of the writes that are made fails: that of a full buffer, or at the end of the connection
that of the rest. -/
def StoreCalls.WriteFails (x : StoreCalls) (uiBufferSize : ℕ) : Prop :=
  ¬ Flushes x uiBufferSize 0 x.incoming.length ∨ x.ending = .eof ∧
    writesAll (x.writes (x.incoming.length / uiBufferSize)) 0
      (x.incoming.length % uiBufferSize) = false

/-- What 226 promises: the whole stream is in a truncated file, and its size is reported; and the
message is another one where the socket is not open, the seek fails, the offset is negative or a
write fails. -/
structure StoreRight (x : StoreCalls) (uiBufferSize : ℕ) (restart_at : ℤ) (iflags : OpenFlag)
    (valid : Bool) (file : Option Bytes) : Prop where
  stored : ∀ ret file',
    store x uiBufferSize restart_at iflags valid file = some (ret, file') → ret.msg = storedMsg →
    restart_at = 0 → iflags = .trunc →
    x.ending = .eof ∧ file' = some x.incoming ∧ ret.size = x.incoming.length
  refused : ∀ ret file',
    store x uiBufferSize restart_at iflags valid file = some (ret, file') →
    valid = false ∨ (0 < restart_at ∧ x.seekOk = false) ∨ restart_at < 0 ∨
      x.WriteFails uiBufferSize → ret.msg ≠ storedMsg

variable {x : StoreCalls} {B : ℕ} {restart_at : ℤ} {iflags : OpenFlag} {valid : Bool}
  {file : Option Bytes}

/-- Whether `SafeWrite` succeeds does not depend on the file. -/
theorem safeWrite_ok (write : ℕ → Option ℕ) (i : ℕ) (f : OpenFile) (buf : Bytes) :
    (safeWrite write i f buf).2 = writesAll write i buf.length := by
  fun_induction safeWrite write i f buf with
  | case1 i f => exact (writesAll_zero write i).symm
  | case2 i f buf h hw =>
      have hne : buf.length ≠ 0 := fun h0 => h (List.length_eq_zero_iff.mp h0)
      exact (writesAll_none hne hw).symm
  | case3 i f buf h k hw ih =>
      have hne : buf.length ≠ 0 := fun h0 => h (List.length_eq_zero_iff.mp h0)
      rw [ih, List.length_drop, writesAll_some hne hw]

/-- Where the file is written does not change how the loop ends. -/
theorem storeLoop_status (x : StoreCalls) (B : ℕ) (pBuffer : Bytes) (f g : OpenFile)
    (flushed received : ℕ) (rest : Bytes) :
    (storeLoop x B pBuffer f flushed received rest).map Prod.fst =
      (storeLoop x B pBuffer g flushed received rest).map Prod.fst := by
  fun_induction storeLoop x B pBuffer f flushed received rest generalizing g with
  | case1 pBuffer f flushed received heof =>
      rw [storeLoop, dif_pos rfl, heof]
      rfl
  | case2 pBuffer f flushed received hfails =>
      rw [storeLoop, dif_pos rfl, hfails]
      rfl
  | case3 pBuffer f flushed received hfails =>
      rw [storeLoop, dif_pos rfl, hfails]
      rfl
  | case4 pBuffer f flushed received hnever =>
      rw [storeLoop, dif_pos rfl, hnever]
  | case5 pBuffer f flushed received rest hrest hfull =>
      rw [storeLoop, dif_neg hrest, if_pos hfull]
      rfl
  | case6 pBuffer f flushed received rest hrest hroom len filled hfull written hok ih =>
      have hok' : (safeWrite (x.writes flushed) 0 g filled).2 = true := by
        rw [safeWrite_ok, ← safeWrite_ok (x.writes flushed) 0 f]
        exact hok
      conv_rhs => rw [storeLoop, dif_neg hrest, if_neg hroom]
      show _ = ((if filled.length = B then _ else _ : Option (Bool × OpenFile))).map Prod.fst
      rw [if_pos hfull, if_pos hok']
      exact ih _
  | case7 pBuffer f flushed received rest hrest hroom len filled hfull written hok =>
      have hok' : ¬ (safeWrite (x.writes flushed) 0 g filled).2 = true := by
        rw [safeWrite_ok, ← safeWrite_ok (x.writes flushed) 0 f]
        exact hok
      conv_rhs => rw [storeLoop, dif_neg hrest, if_neg hroom]
      show _ = ((if filled.length = B then _ else _ : Option (Bool × OpenFile))).map Prod.fst
      rw [if_pos hfull, if_neg hok']
      rfl
  | case8 pBuffer f flushed received rest hrest hroom len filled hfull ih =>
      conv_rhs => rw [storeLoop, dif_neg hrest, if_neg hroom]
      show _ = ((if filled.length = B then _ else _ : Option (Bool × OpenFile))).map Prod.fst
      rw [if_neg hfull]
      exact ih _

/-- The three ends of the loop, from any file. -/
theorem storeLoop_ends (hB : 0 < B) (x : StoreCalls) (f : OpenFile) :
    (storeLoop x B [] f 0 0 x.incoming = none ∧ x.ending = .never) ∨
      (∃ g, storeLoop x B [] f 0 0 x.incoming = some (false, g) ∧
        ¬ (Flushes x B 0 x.incoming.length ∧ x.ending = .eof)) ∨
      ∃ g, storeLoop x B [] f 0 0 x.incoming = some (true, g) ∧
        Flushes x B 0 x.incoming.length ∧ x.ending = .eof := by
  have hending : x.endingFor B = x.ending := if_neg fun h => Nat.ne_of_gt hB h.1
  have hstatus := storeLoop_status x B [] f { content := [], offset := 0, append := false } 0 0
    x.incoming
  have hcases := storeLoop_cases x B (f := { content := [], offset := 0, append := false })
    (.inr rfl)
  unfold Arrives Hangs at hcases
  rw [hending] at hcases
  cases hloop : storeLoop x B [] f 0 0 x.incoming with
  | none =>
      rw [hloop] at hstatus
      rcases hcases with ⟨_, _, hnever⟩ | ⟨g, hfailed, _⟩ | ⟨g, hended, _⟩
      · exact .inl ⟨rfl, hnever⟩
      · rw [hfailed] at hstatus
        cases hstatus
      · rw [hended] at hstatus
        cases hstatus
  | some r =>
      rw [hloop] at hstatus
      rcases hcases with ⟨hnone, _⟩ | ⟨g, hfailed, _, harrives⟩ | ⟨g, hended, _, harrives, _⟩
      · rw [hnone] at hstatus
        cases hstatus
      · rw [hfailed] at hstatus
        exact .inr (.inl ⟨r.2, congrArg some (Prod.ext (Option.some.inj hstatus) rfl), harrives⟩)
      · rw [hended] at hstatus
        exact .inr (.inr ⟨r.2, congrArg some (Prod.ext (Option.some.inj hstatus) rfl), harrives⟩)

/-- At the end of the connection a truncated file has everything when the last write succeeds. -/
theorem storeLoop_content (hB : 0 < B) (x : StoreCalls) {g : OpenFile}
    (h : storeLoop x B [] { content := [], offset := 0, append := false } 0 0 x.incoming =
      some (true, g))
    (hlast : writesAll (x.writes (x.incoming.length / B)) 0 (x.incoming.length % B) = true) :
    g.content = x.incoming := by
  have hcases := storeLoop_cases x B (f := { content := [], offset := 0, append := false })
    (.inr rfl)
  rw [h] at hcases
  rcases hcases with ⟨hnone, _⟩ | ⟨g', hfailed, _⟩ | ⟨g', hended, _, _, hcontent⟩
  · cases hnone
  · cases hfailed
  · cases hended
    exact hcontent.2 ⟨fun h0 => absurd h0 (Nat.ne_of_gt hB), hlast⟩

/-! ### The reply -/

/-- The size that `stat` finds. -/
def StoreCalls.found (x : StoreCalls) (file : Option Bytes) : ℤ :=
  if x.statOk then (file.map fun b => (b.length : ℤ)).getD (-1) else -1

theorem store_closed (hopen : x.openOk = false) :
    store x B restart_at iflags valid file =
      some ({ msg := .line 550 "Can't store file.", size := x.found file }, file) := by
  simp [store, hopen, StoreCalls.found]

/-- The loop is not reached, and the message is 226. -/
theorem store_idle (hopen : x.openOk = true) (h : ¬ (x.Seeks restart_at ∧ valid = true)) :
    store x B restart_at iflags valid file =
      some ({ msg := storedMsg, size := x.found (some (openFile iflags file).content) },
        some (openFile iflags file).content) := by
  unfold store
  unfold StoreCalls.Seeks at h
  simp only [hopen]
  rw [if_pos trivial, if_neg h]
  rfl

theorem store_looped (hopen : x.openOk = true) (hseek : x.Seeks restart_at)
    (hvalid : valid = true) :
    store x B restart_at iflags valid file =
      (storeLoop x B [] { openFile iflags file with offset := restart_at.toNat } 0 0
        x.incoming).map fun r =>
          ({ msg := if r.1 then storedMsg else .line 550 "Can't store file."
             size := x.found (some r.2.content) }, some r.2.content) := by
  have h : ((0 < restart_at ∧ x.seekOk = true) ∨ restart_at = 0) ∧ valid = true := ⟨hseek, hvalid⟩
  unfold store
  simp only [hopen]
  rw [if_pos trivial, if_pos h, Option.map_map]
  rfl

/-- Nothing is promised where 226 is not replied. -/
theorem storeRight_of_unsaid (h : ∀ ret file',
    store x B restart_at iflags valid file = some (ret, file') → ret.msg ≠ storedMsg) :
    StoreRight x B restart_at iflags valid file := by
  constructor
  · intro ret file' hstore hmsg
    exact absurd hmsg (h ret file' hstore)
  · intro ret file' hstore _
    exact h ret file' hstore

theorem storeRight_closed (hopen : x.openOk = false) :
    StoreRight x B restart_at iflags valid file := by
  apply storeRight_of_unsaid
  intro ret file' hstore hmsg
  rw [store_closed hopen] at hstore
  cases hstore
  cases hmsg

/-- Where the loop is not reached, the reply is 226, whatever has failed. -/
theorem not_storeRight_idle (hopen : x.openOk = true)
    (hidle : ¬ (x.Seeks restart_at ∧ valid = true)) :
    ¬ StoreRight x B restart_at iflags valid file := by
  have hcause : valid = false ∨ (0 < restart_at ∧ x.seekOk = false) ∨ restart_at < 0 ∨
      x.WriteFails B := by
    cases hv : valid with
    | false => exact .inl rfl
    | true =>
        have hseek : ¬ ((0 < restart_at ∧ x.seekOk = true) ∨ restart_at = 0) :=
          fun hseek => hidle ⟨hseek, hv⟩
        rcases lt_trichotomy restart_at 0 with hneg | hzero | hpos
        · exact .inr (.inr (.inl hneg))
        · exact absurd (.inr hzero) hseek
        · cases hs : x.seekOk with
          | false => exact .inr (.inl ⟨hpos, rfl⟩)
          | true => exact absurd (.inl ⟨hpos, hs⟩) hseek
  intro h
  exact absurd rfl (h.refused _ _ (store_idle hopen hidle) hcause)

/-- None of the causes for a refusal is there when the last write succeeds. -/
theorem not_refused (hseeks : x.Seeks restart_at) (hvalid : valid = true)
    (hflush : Flushes x B 0 x.incoming.length)
    (hlast : writesAll (x.writes (x.incoming.length / B)) 0 (x.incoming.length % B) = true) :
    ¬ (valid = false ∨ (0 < restart_at ∧ x.seekOk = false) ∨ restart_at < 0 ∨ x.WriteFails B) := by
  rintro (hinvalid | ⟨hpos, hfails⟩ | hneg | hflushes | ⟨-, hfails⟩)
  · rw [hvalid] at hinvalid
    cases hinvalid
  · rcases hseeks with ⟨-, hok⟩ | hzero
    · rw [hfails] at hok
      cases hok
    · omega
  · rcases hseeks with ⟨hpos, -⟩ | hzero
    · omega
    · omega
  · exact hflushes hflush
  · rw [hlast] at hfails
    cases hfails

section Loop

variable {g : OpenFile} (hopen : x.openOk = true) (hseeks : x.Seeks restart_at)
  (hvalid : valid = true)
include hopen hseeks hvalid

/-- A loop that does not end replies nothing, and one that fails replies 550. -/
theorem storeRight_unended
    (h : ∀ g, storeLoop x B [] { openFile iflags file with offset := restart_at.toNat } 0 0
      x.incoming ≠ some (true, g)) : StoreRight x B restart_at iflags valid file := by
  apply storeRight_of_unsaid
  intro ret file' hstore hmsg
  rw [store_looped hopen hseeks hvalid, Option.map_eq_some_iff] at hstore
  obtain ⟨⟨ended, g⟩, hloop, heq⟩ := hstore
  cases ended with
  | true => exact h g hloop
  | false =>
      rw [Prod.mk.injEq] at heq
      rw [← heq.1] at hmsg
      cases hmsg

/-- A loop that ends with the connection replies 226, which is right exactly when the last write
succeeds and the size of a new file can be found. -/
theorem storeRight_ended (hB : 1 ≤ B)
    (hended : storeLoop x B [] { openFile iflags file with offset := restart_at.toNat } 0 0
      x.incoming = some (true, g))
    (hflush : Flushes x B 0 x.incoming.length) (heof : x.ending = .eof) :
    StoreRight x B restart_at iflags valid file ↔
      writesAll (x.writes (x.incoming.length / B)) 0 (x.incoming.length % B) = true ∧
        (restart_at = 0 → iflags = .trunc → x.statOk = true) := by
  have hstored : store x B restart_at iflags valid file = _ := store_looped hopen hseeks hvalid
  rw [hended] at hstored
  constructor
  · intro h
    constructor
    · by_contra hfails
      exact h.refused _ _ hstored (.inr (.inr (.inr (.inr ⟨heof, Bool.eq_false_iff.2 hfails⟩)))) rfl
    · intro hzero htrunc
      have hsize : x.found (some g.content) = x.incoming.length :=
        (h.stored _ _ hstored rfl hzero htrunc).2.2
      by_contra hstat
      rw [StoreCalls.found, if_neg hstat] at hsize
      omega
  · rintro ⟨hlast, hstat⟩
    constructor
    · intro ret file' hstore _ hzero htrunc
      rw [hstored] at hstore
      cases hstore
      have hfile : g.content = x.incoming := by
        subst hzero htrunc
        exact storeLoop_content hB x hended hlast
      refine ⟨heof, congrArg some hfile, ?_⟩
      show x.found (some g.content) = _
      rw [StoreCalls.found, if_pos (hstat hzero htrunc), hfile]
      rfl
    · intro ret file' _ hcause
      exact absurd hcause (not_refused hseeks hvalid hflush hlast)

end Loop

/-- **226 means that every byte is in the file** when the file does not open, or when the offset is
reached, the socket is open and, if the connection comes to its end, the last write succeeds and the
size can be found. -/
theorem store_right_iff (x : StoreCalls) (uiBufferSize : ℕ) (restart_at : ℤ) (iflags : OpenFlag)
    (valid : Bool) (file : Option Bytes) (hB : 1 ≤ uiBufferSize) :
    StoreRight x uiBufferSize restart_at iflags valid file ↔
    (x.openOk = true → x.Seeks restart_at ∧ valid = true ∧
      (Flushes x uiBufferSize 0 x.incoming.length → x.ending = .eof →
        writesAll (x.writes (x.incoming.length / uiBufferSize)) 0
          (x.incoming.length % uiBufferSize) = true ∧
        (restart_at = 0 → iflags = .trunc → x.statOk = true))) := by
  cases hopen : x.openOk with
  | false => exact iff_of_true (storeRight_closed hopen) fun h => absurd h Bool.false_ne_true
  | true =>
      by_cases hruns : x.Seeks restart_at ∧ valid = true
      · obtain ⟨hseeks, hvalid⟩ := hruns
        rcases storeLoop_ends hB x { openFile iflags file with offset := restart_at.toNat } with
          ⟨hnone, hnever⟩ | ⟨g, hfailed, hno⟩ | ⟨g, hended, hflush, heof⟩
        · -- the connection never ends, and nothing is replied
          apply iff_of_true
          · apply storeRight_unended hopen hseeks hvalid
            intro g hloop
            rw [hnone] at hloop
            cases hloop
          · intro _
            refine ⟨hseeks, hvalid, fun _ heof => ?_⟩
            rw [hnever] at heof
            cases heof
        · apply iff_of_true
          · apply storeRight_unended hopen hseeks hvalid
            intro g hloop
            rw [hfailed] at hloop
            cases hloop
          · exact fun _ => ⟨hseeks, hvalid, fun hflush heof => absurd ⟨hflush, heof⟩ hno⟩
        · rw [storeRight_ended hopen hseeks hvalid hB hended hflush heof]
          constructor
          · exact fun h _ => ⟨hseeks, hvalid, fun _ _ => h⟩
          · exact fun h => (h rfl).2.2 hflush heof
      · apply iff_of_false (not_storeRight_idle hopen hruns)
        intro h
        exact hruns ⟨(h rfl).1, (h rfl).2.1⟩

/-- Two bytes arrive, and every `write` answers `k`. -/
def twoBytes (k : Option ℕ) : StoreCalls where
  openOk := true
  seekOk := true
  incoming := [7, 8]
  recvs := fun _ => 2
  ending := .eof
  writes := fun _ _ => k
  statOk := true

/-- Where the writes succeed, 226 is right. -/
theorem store_right_twoBytes : StoreRight (twoBytes (some 4)) 4 0 .trunc true none := by
  have hfour : (twoBytes (some 4)).writes 0 0 = some 4 := rfl
  have hlast : writesAll ((twoBytes (some 4)).writes 0) 0 2 = true := by
    rw [writesAll_some (by decide) hfour]
    exact writesAll_zero _ _
  exact (store_right_iff (twoBytes (some 4)) 4 0 .trunc true none (by decide)).2
    fun _ => ⟨.inr rfl, rfl, fun _ _ => ⟨hlast, fun _ _ => rfl⟩⟩

theorem storeLoop_twoBytes : storeLoop (twoBytes none) 4 []
    { content := [], offset := 0, append := false } 0 0 [7, 8] =
      some (true, { content := [], offset := 0, append := false }) := by
  have hroom : ¬ 4 ≤ ([] : Bytes).length := by decide
  have hfull : ¬ 2 = 4 := by decide
  rw [storeLoop, dif_neg (by decide), if_neg hroom]
  refine (if_neg hfull).trans ?_
  show storeLoop (twoBytes none) 4 [7, 8] _ 0 1 [] = _
  rw [storeLoop, dif_pos rfl]
  show some (lastWrite (twoBytes none) 0 _ [7, 8]) = _
  rw [lastWrite, safeWrite, dif_neg (by decide)]
  rfl

/-- The only write fails, and its answer is dropped: 226, and the file is empty. -/
theorem lost_write : store (twoBytes none) 4 0 .trunc true none =
      some ({ msg := .line 226 "Transfer complete.", size := 0 }, some []) ∧
    ¬ StoreRight (twoBytes none) 4 0 .trunc true none := by
  have hstore : store (twoBytes none) 4 0 .trunc true none =
      some ({ msg := .line 226 "Transfer complete.", size := 0 }, some []) := by
    rw [store_looped rfl (.inr rfl) rfl]
    show (storeLoop (twoBytes none) 4 [] { content := [], offset := 0, append := false } 0 0
      [7, 8]).map _ = _
    rw [storeLoop_twoBytes]
    rfl
  refine ⟨hstore, ?_⟩
  intro h
  have hfile := (h.stored _ _ hstore rfl rfl rfl).2.1
  cases hfile

end ClusterFtpd
