import ClusterFtpd.ListingLines

/-!
# The blocks of a listing

`AddToListBuffer` is called with one line after the other and at the end without one.  The buffer
loses nothing and doubles nothing: `run_addLines` says that the calls write the text of the lines in
blocks as long as the buffer, whatever the lines are that the text comes in, and
`addAndFlush_sends` that the flush completes it.

The flush sends what waits but leaves `nBufferPos` where it was, so that the position counts what is
still to be sent after it only where nothing was: `listBuffer_right_iff`.  `sendDirectory_blocks` is
about `ListThread` itself.
-/

namespace ClusterFtpd

open Interaction MachineInt Blocks

/-! ### The calls -/

/-- `AddToListBuffer` for one line after the other, up to a call that fails. -/
def addLines (uiBufferSize : ℕ) : List Text → ListBuffer → ListProg (Bool × ListBuffer)
  | [], b => return (true, b)
  | line :: lines, b => do
      let r ← addToListBuffer uiBufferSize line b
      if r.1 then addLines uiBufferSize lines r.2 else return r

/-- The lines and the flush, which does not write `nBufferPos`. -/
def addAndFlush (uiBufferSize : ℕ) (lines : List Text) (b : ListBuffer) :
    ListProg (Bool × ListBuffer) := do
  let r ← addLines uiBufferSize lines b
  flushListBuffer r.2
  return r

variable {env : ListEnv} {n : ℕ} {b : ListBuffer} {s : ListingState} {cells : List Char}
  {lines lines' : List Text}

/-- **The lines are written in blocks** as long as the buffer; what does not fill one waits. -/
theorem run_addLines (s : ListingState) (hsend : env.Transmits) (hb : b.Ready n)
    (hn : n < 2147483648) (hlines : ∀ line ∈ lines, line.length ≤ n) :
    ∃ blocks b', run (serveList env) (addLines n lines b) s =
        .done (true, b') { s with sent := s.sent ++ blocks } ∧
      b'.Ready n ∧ Written n blocks b'.pending (b.pending ++ lines.flatten) := by
  induction lines generalizing s b with
  | nil =>
      have hshort : b.pending.length < n := by
        rw [hb.pending_length]
        exact hb.pos
      refine ⟨[], b, ?_, hb, ?_⟩
      · rw [List.append_nil]
        rfl
      · rw [List.flatten_nil, List.append_nil]
        exact .waiting hshort
  | cons line lines ih =>
      obtain ⟨blocks, b₁, hrun, hready, hwritten⟩ :=
        run_addToListBuffer s hsend hb hn (hlines line List.mem_cons_self)
      obtain ⟨blocks', b', hrun', hready', hwritten'⟩ :=
        ih { s with sent := s.sent ++ blocks } hready
          fun m hm => hlines m (List.mem_cons_of_mem line hm)
      refine ⟨blocks ++ blocks', b', ?_, hready', ?_⟩
      · rw [addLines, run_bind, hrun, Outcome.done_andThen, if_pos rfl, hrun', List.append_assoc]
      · rw [List.flatten_cons, ← List.append_assoc]
        exact hwritten.append hwritten'

theorem run_addAndFlush {r : Bool × ListBuffer} {s' : ListingState}
    (h : run (serveList env) (addLines n lines b) s = .done r s') :
    run (serveList env) (addAndFlush n lines b) s =
      .done r { s' with sent := s'.sent ++ [r.2.pending] } := by
  rw [addAndFlush, run_bind, h, Outcome.done_andThen]
  rfl

/-! ### A new buffer -/

theorem newBuffer_ready (hpos : 0 < n) (hcells : cells.length = n) :
    (⟨cells, 0⟩ : ListBuffer).Ready n := ⟨hcells, hpos⟩

/-- **What is sent**: the text of the lines in blocks, and the rest with the flush. -/
theorem addAndFlush_sends (s : ListingState) (hsend : env.Transmits) (hpos : 0 < n)
    (hn : n < 2147483648) (hcells : cells.length = n) (hlines : ∀ line ∈ lines, line.length ≤ n) :
    ∃ blocks b, run (serveList env) (addLines n lines ⟨cells, 0⟩) s =
        .done (true, b) { s with sent := s.sent ++ blocks } ∧
      run (serveList env) (addAndFlush n lines ⟨cells, 0⟩) s =
        .done (true, b) { s with sent := s.sent ++ (blocks ++ [b.pending]) } ∧
      b.Ready n ∧ Written n blocks b.pending lines.flatten := by
  obtain ⟨blocks, b, hrun, hready, hwritten⟩ :=
    run_addLines s hsend (newBuffer_ready hpos hcells) hn hlines
  refine ⟨blocks, b, hrun, ?_, hready, hwritten⟩
  rw [run_addAndFlush hrun, List.append_assoc]

/-- **Only the text matters**: lines with the same text are sent in the same blocks. -/
theorem addAndFlush_of_text (s : ListingState) (hsend : env.Transmits) (hpos : 0 < n)
    (hn : n < 2147483648) (hcells : cells.length = n) (hlines : ∀ line ∈ lines, line.length ≤ n)
    (hlines' : ∀ line ∈ lines', line.length ≤ n) (htext : lines.flatten = lines'.flatten) :
    (run (serveList env) (addAndFlush n lines ⟨cells, 0⟩) s).state =
      (run (serveList env) (addAndFlush n lines' ⟨cells, 0⟩) s).state := by
  obtain ⟨blocks, b, -, hrun, -, hwritten⟩ := addAndFlush_sends s hsend hpos hn hcells hlines
  obtain ⟨blocks', b', -, hrun', -, hwritten'⟩ := addAndFlush_sends s hsend hpos hn hcells hlines'
  rw [htext] at hwritten
  have hsame := hwritten.unique hwritten'
  rw [hrun, hrun', hsame.1, hsame.2]
  rfl

/-! ### What the buffer is for -/

/-- The position lies in the buffer and counts the characters of `given` that are not in `sent`. -/
structure Stands (n : ℕ) (given sent : List Text) (nBufferPos : ℕ) : Prop where
  inside : nBufferPos < n
  unsent : sent.flatten.length + nBufferPos = given.flatten.length

/-- Every call for a line succeeds, with all its copies in the buffer, and leaves the position right;
with the flush, what was sent is the text of the lines, in blocks as long as the buffer except for
the last. -/
structure LinesRight (env : ListEnv) (n : ℕ) (cells : List Char) (lines : List Text)
    (s : ListingState) : Prop where
  calls : ∀ given, given <+: lines → ∃ sent b,
    run (serveList env) (addLines n given ⟨cells, 0⟩) s =
      .done (true, b) { s with sent := s.sent ++ sent } ∧ Stands n given sent b.nBufferPos
  closed : ∃ sent b, run (serveList env) (addAndFlush n lines ⟨cells, 0⟩) s =
      .done (true, b) { s with sent := s.sent ++ sent } ∧
    sent.flatten = lines.flatten ∧ ∀ text ∈ sent.dropLast, text.length = n

/-- The flush leaves the position right as well. -/
def FlushRight (env : ListEnv) (n : ℕ) (cells : List Char) (lines : List Text)
    (s : ListingState) : Prop :=
  ∃ sent b, run (serveList env) (addAndFlush n lines ⟨cells, 0⟩) s =
    .done (true, b) { s with sent := s.sent ++ sent } ∧ Stands n lines sent b.nBufferPos

theorem linesRight_of_small (s : ListingState) (hsend : env.Transmits) (hpos : 0 < n)
    (hn : n < 2147483648) (hcells : cells.length = n) (hlines : ∀ line ∈ lines, line.length ≤ n) :
    LinesRight env n cells lines s := by
  constructor
  · intro given hgiven
    have hfits : ∀ line ∈ given, line.length ≤ n := fun line hline =>
      hlines line (hgiven.subset hline)
    obtain ⟨blocks, b, hrun, -, hready, hwritten⟩ :=
      addAndFlush_sends s hsend hpos hn hcells hfits
    have hunsent : blocks.flatten.length + b.nBufferPos = given.flatten.length := by
      rw [← hwritten.all, List.length_append, hready.pending_length]
    exact ⟨blocks, b, hrun, hready.pos, hunsent⟩
  · obtain ⟨blocks, b, -, hrun, -, hwritten⟩ := addAndFlush_sends s hsend hpos hn hcells hlines
    exact ⟨blocks ++ [b.pending], b, hrun, hwritten.flatten_close, hwritten.whole_close⟩

/-- Where no line is added the size of the buffer does not matter. -/
theorem linesRight_nil (s : ListingState) (hpos : 0 < n) : LinesRight env n cells [] s := by
  have hstands : Stands n [] [] 0 := ⟨hpos, rfl⟩
  constructor
  · intro given hgiven
    rw [List.prefix_nil.1 hgiven]
    refine ⟨[], ⟨cells, 0⟩, ?_, hstands⟩
    rw [List.append_nil]
    rfl
  · refine ⟨[[]], ⟨cells, 0⟩, rfl, rfl, ?_⟩
    intro text htext
    cases htext

theorem addLines_overflows (line : Text) (hn : 2147483648 ≤ n) (hmax : n < 4294967296) :
    run (serveList env) (addLines n (line :: lines) ⟨cells, 0⟩) s =
      .stopped .undefinedBehaviour s := by
  rw [addLines, run_bind, addToListBuffer_overflows line rfl hn hmax]
  rfl

/-- **A buffer of `2 ^ 31` characters takes no line.** -/
theorem small_of_linesRight (hmax : n < 4294967296) (h : LinesRight env n cells lines s) :
    lines = [] ∨ n < 2147483648 := by
  cases lines with
  | nil => exact .inl rfl
  | cons line lines =>
      right
      by_contra hn
      obtain ⟨sent, b, hrun, -⟩ := h.calls (line :: lines) (List.prefix_refl _)
      rw [addLines_overflows line (Nat.le_of_not_lt hn) hmax] at hrun
      cases hrun

/-- After the flush the position is right where nothing waited. -/
theorem flushRight_iff (s : ListingState) (hsend : env.Transmits) (hpos : 0 < n)
    (hn : n < 2147483648) (hcells : cells.length = n) (hlines : ∀ line ∈ lines, line.length ≤ n) :
    FlushRight env n cells lines s ↔ n ∣ lines.flatten.length := by
  obtain ⟨blocks, b, -, hrun, hready, hwritten⟩ := addAndFlush_sends s hsend hpos hn hcells hlines
  have hall : (blocks ++ [b.pending]).flatten.length = lines.flatten.length := by
    rw [hwritten.flatten_close]
  rw [← hwritten.rest_empty_iff, hready.pending_length]
  constructor
  · intro h
    obtain ⟨sent, b', hrun', hstands⟩ := h
    rw [hrun, Outcome.done.injEq, Prod.mk.injEq, ListingState.mk.injEq] at hrun'
    have hsent : blocks ++ [b.pending] = sent := List.append_cancel_left hrun'.2.2.2
    have hunsent := hstands.unsent
    rw [← hrun'.1.2, ← hsent, hall] at hunsent
    omega
  · intro hzero
    refine ⟨_, b, hrun, hready.pos, ?_⟩
    rw [hall, hzero, Nat.add_zero]

theorem flushRight_nil (s : ListingState) (hpos : 0 < n) : FlushRight env n cells [] s :=
  ⟨[[]], ⟨cells, 0⟩, rfl, hpos, rfl⟩

/-- **The listing buffer** is right in all its calls but the flush where it has fewer than `2 ^ 31`
characters, and in the flush too where the text of the lines ends with a block. -/
theorem listBuffer_right_iff (s : ListingState) (hsend : env.Transmits) (hpos : 0 < n)
    (hmax : n < 4294967296) (hcells : cells.length = n)
    (hlines : ∀ line ∈ lines, line.length ≤ n) :
    (LinesRight env n cells lines s ↔ lines = [] ∨ n < 2147483648) ∧
      (LinesRight env n cells lines s ∧ FlushRight env n cells lines s ↔
        (lines = [] ∨ n < 2147483648) ∧ n ∣ lines.flatten.length) := by
  have hright : LinesRight env n cells lines s ↔ lines = [] ∨ n < 2147483648 := by
    constructor
    · exact small_of_linesRight hmax
    · intro h
      rcases h with hnil | hn
      · rw [hnil]
        exact linesRight_nil s hpos
      · exact linesRight_of_small s hsend hpos hn hcells hlines
  refine ⟨hright, ?_⟩
  rw [hright]
  apply and_congr_right
  intro h
  rcases h with hnil | hn
  · rw [hnil]
    exact iff_of_true (flushRight_nil s hpos) (dvd_zero n)
  · exact flushRight_iff s hsend hpos hn hcells hlines

/-- A line of one character and one of two, in a buffer of two. -/
theorem listBuffer_right_ab :
    (LinesRight sendingEnv 2 ['\x00', '\x00'] [['a'], ['b', 'c']] ⟨initRedis 0, [], []⟩ ↔
        [['a'], ['b', 'c']] = [] ∨ 2 < 2147483648) ∧
      (LinesRight sendingEnv 2 ['\x00', '\x00'] [['a'], ['b', 'c']] ⟨initRedis 0, [], []⟩ ∧
          FlushRight sendingEnv 2 ['\x00', '\x00'] [['a'], ['b', 'c']] ⟨initRedis 0, [], []⟩ ↔
        ([['a'], ['b', 'c']] = [] ∨ 2 < 2147483648) ∧ 2 ∣ [['a'], ['b', 'c']].flatten.length) :=
  listBuffer_right_iff ⟨initRedis 0, [], []⟩ (fun _ _ => rfl) (by decide) (by decide) rfl (by decide)

/-- A buffer of `2 ^ 31` characters does not take one character, and one of two characters that holds
one stands at 1 after the flush. -/
theorem one_character_wrong :
    ¬ LinesRight sendingEnv 2147483648 (List.replicate 2147483648 '\x00') [['a']]
        ⟨initRedis 0, [], []⟩ ∧
      ¬ FlushRight sendingEnv 2 ['\x00', '\x00'] [['a']] ⟨initRedis 0, [], []⟩ := by
  constructor
  · intro h
    rcases small_of_linesRight (by decide) h with hnil | hn
    · cases hnil
    · exact absurd hn (lt_irrefl _)
  · intro h
    have hiff : FlushRight sendingEnv 2 ['\x00', '\x00'] [['a']] ⟨initRedis 0, [], []⟩ ↔
        2 ∣ [['a']].flatten.length :=
      flushRight_iff _ (fun _ _ => rfl) (by decide) (by decide) rfl (by decide)
    have hdvd : 2 ∣ [['a']].flatten.length := hiff.1 h
    exact absurd hdvd (by decide)

/-! ### The listing of a directory -/

/-- Since `start` only blocks of `n` characters were sent. -/
def SentWhole (n : ℕ) (start : List Text) (s : ListingState) : Prop :=
  ∃ blocks, s.sent = start ++ blocks ∧ ∀ block ∈ blocks, block.length = n

variable {start : List Text} {t : DataTransfer} {α β : Type} {R : α → Prop} {R' : β → Prop}

theorem sentWhole_start (s : ListingState) : SentWhole n s.sent s := by
  refine ⟨[], (List.append_nil s.sent).symm, ?_⟩
  intro block hblock
  cases hblock

theorem SentWhole.next (h : SentWhole n start s) {block : Text} (hblock : block.length = n) :
    SentWhole n start { s with sent := s.sent ++ [block] } := by
  obtain ⟨blocks, hsent, hwhole⟩ := h
  refine ⟨blocks ++ [block], ?_, ?_⟩
  · show s.sent ++ [block] = _
    rw [hsent, List.append_assoc]
  · intro m hm
    rcases List.mem_append.1 hm with hold | hnew
    · exact hwhole m hold
    · rw [List.mem_singleton.1 hnew]
      exact hblock

/-- The programs that send blocks of `n` characters only, for any answers. -/
abbrev Whole (env : ListEnv) (n : ℕ) (start : List Text) (p : ListProg α) (R : α → Prop) : Prop :=
  Sound (serveList env) (fun _ _ => True) (SentWhole n start) p fun a s => R a ∧ SentWhole n start s

theorem Whole.bind {p : ListProg α} {f : α → ListProg β} (hp : Whole env n start p R)
    (hf : ∀ a, R a → Whole env n start (f a) R') : Whole env n start (p >>= f) R' := hp.bind_inv hf

theorem whole_ret {a : α} (h : R a) : Whole env n start (.ret a) R :=
  Sound.ret fun _ hs => ⟨h, hs⟩

theorem whole_sendText {text : Text} (h : text.length = n) :
    Whole env n start (sendText text) fun _ => True :=
  Sound.op (fun _ _ => trivial) fun _ hs => ⟨trivial, hs.next h⟩

/-- An operation that sends nothing. -/
def ListOp.Quiet : ListOp → Prop
  | .send _ => False
  | .redis _ => True
  | .time => True
  | .copy _ _ => True

theorem whole_quiet {p : ListProg α} (hp : Every ListOp.Quiet p) :
    Whole env n start p fun _ => True := by
  have hkeeps : Sound (serveList env) (fun _ _ => True) (SentWhole n start) p
      fun _ => SentWhole n start := by
    apply Sound.frame hp
    intro o ho s hs
    cases o with
    | send text => cases ho
    | redis o => exact ⟨trivial, hs⟩
    | time => exact ⟨trivial, hs⟩
    | copy size text => exact ⟨trivial, hs⟩
  exact hkeeps.imp (fun _ hs => hs) fun _ _ hs => ⟨trivial, hs⟩

theorem quiet_listRedis (p : RedisProg α) : Every ListOp.Quiet (listRedis p) :=
  (every_true p).translate fun _ _ => trivial

theorem quiet_copyText (size : ℕ) (text : Text) : Every ListOp.Quiet (copyText size text) :=
  ⟨trivial, fun _ => trivial⟩

theorem quiet_getFileListLine (mode : ℕ) (size mtime : ℤ) (pszName : Text) (opt_F : Bool) :
    Every ListOp.Quiet (getFileListLine mode size mtime pszName opt_F) := by
  refine ⟨trivial, ?_⟩
  intro now
  apply (quiet_copyText _ _).bind
  intro _
  apply (quiet_copyText _ _).bind
  intro _
  trivial

theorem quiet_findNext (szDirPath name : Text) :
    Every ListOp.Quiet (FileInfo.findNext szDirPath name) := by
  apply (quiet_copyText _ _).bind
  intro _
  split
  · trivial
  · apply (quiet_copyText _ _).bind
    intro _
    apply (quiet_listRedis _).bind
    intro st
    trivial

theorem quiet_openDir (szPath : Text) : Every ListOp.Quiet (openDir szPath) := by
  apply (quiet_copyText _ _).bind
  intro _
  apply (quiet_copyText _ _).bind
  intro _
  apply (quiet_listRedis _).bind
  intro fid
  split
  · trivial
  · apply (quiet_listRedis _).bind
    intro reply
    trivial

/-- `memcpy` leaves the length of the buffer. -/
theorem whole_memcpy {buffer : List Char} (h : buffer.length = n) (p : ℕ) (text : Text) :
    Whole env n start (memcpy buffer p text) fun buffer' => buffer'.length = n := by
  unfold memcpy
  by_cases hroom : p + text.length ≤ buffer.length
  · obtain ⟨buffer', hcopy, hlength, -⟩ := CString.exists_copy hroom
    rw [hcopy]
    exact whole_ret (hlength.trans h)
  · have hnone : CString.copy buffer p text = none := if_neg hroom
    rw [hnone]
    exact Sound.stop

theorem whole_addToListBuffer (line : Text) (hb : b.pBuffer.length = n) :
    Whole env n start (addToListBuffer n line b) fun r => r.2.pBuffer.length = n := by
  unfold addToListBuffer
  dsimp only
  generalize (if (line.length : ℤ) ≤ int32 (n - b.nBufferPos) then (line.length : ℤ)
    else int32 (n - b.nBufferPos)) = iCanCopyLen
  split
  · exact Sound.stop
  · apply (whole_memcpy hb _ _).bind
    intro pBuffer hcells
    split
    · have hfull : (pBuffer.take n).length = n := by
        rw [List.length_take, hcells, Nat.min_self]
      apply (whole_sendText hfull).bind
      intro res _
      split
      · exact whole_ret hcells
      · split
        · apply (whole_memcpy hcells _ _).bind
          intro after hafter
          exact whole_ret hafter
        · exact whole_ret hcells
    · exact whole_ret hcells

theorem whole_listEntry (t : DataTransfer) (fi : FileInfo) (hb : b.pBuffer.length = n) :
    Whole env n start (listEntry n t fi b) fun r => r.2.pBuffer.length = n := by
  unfold listEntry
  split
  · split
    · exact whole_addToListBuffer fi.pszName hb
    · apply (whole_quiet (quiet_getFileListLine _ _ _ _ _)).bind
      intro psFileLine _
      exact whole_addToListBuffer psFileLine hb
  · exact whole_ret hb

theorem whole_listEntries (t : DataTransfer) (vdp : List Text) (fi : FileInfo)
    (hb : b.pBuffer.length = n) :
    Whole env n start (listEntries n t vdp fi b) fun _ => True := by
  induction vdp generalizing fi b with
  | nil =>
      apply (whole_listEntry t fi hb).bind
      intro r _
      exact whole_ret trivial
  | cons name vdp ih =>
      apply (whole_listEntry t fi hb).bind
      intro r hr
      split
      · apply (whole_quiet (quiet_findNext _ _)).bind
        intro found _
        cases found with
        | none => exact whole_ret trivial
        | some next => exact ih next hr
      · exact whole_ret trivial

/-- Since `start` blocks of `n` characters were sent and a last one. -/
def SentBlocks (n : ℕ) (start : List Text) (s : ListingState) : Prop :=
  ∃ sent, s.sent = start ++ sent ∧ ∀ text ∈ sent.dropLast, text.length = n

theorem SentWhole.blocks (h : SentWhole n start s) : SentBlocks n start s := by
  obtain ⟨blocks, hsent, hwhole⟩ := h
  exact ⟨blocks, hsent, fun text htext => hwhole text (List.dropLast_subset blocks htext)⟩

/-- The flush sends the last block. -/
theorem sound_flushListBuffer (b : ListBuffer) :
    Sound (serveList env) (fun _ _ => True) (SentWhole n start) (flushListBuffer b)
      fun _ s => SentBlocks n start s := by
  constructor
  · intro s _
    exact (every_true (flushListBuffer b)).along (serveList env) (fun _ _ _ => trivial) s
  · intro s hs a s' hrun
    obtain ⟨blocks, hsent, hwhole⟩ := hs
    have hstate : { s with sent := s.sent ++ [b.pending] } = s' := by
      have heq : Outcome.done () { s with sent := s.sent ++ [b.pending] } = .done a s' := hrun
      rw [Outcome.done.injEq] at heq
      exact heq.2
    refine ⟨blocks ++ [b.pending], ?_, ?_⟩
    · rw [← hstate, ← List.append_assoc, ← hsent]
    · rw [List.dropLast_concat]
      exact hwhole

theorem sound_sendDirectory (t : DataTransfer) :
    Sound (serveList env) (fun _ _ => True) (SentWhole n start) (sendDirectory n t)
      fun _ s => SentBlocks n start s := by
  apply (whole_quiet (quiet_openDir _)).bind_inv
  intro vdp _
  cases vdp with
  | nil => exact Sound.ret fun _ hs => hs.blocks
  | cons name vdp =>
      apply (whole_quiet (quiet_findNext _ _)).bind_inv
      intro found _
      cases found with
      | none => exact Sound.ret fun _ hs => hs.blocks
      | some fi =>
          apply (whole_listEntries t vdp fi List.length_replicate).bind_inv
          intro b _
          exact sound_flushListBuffer b

/-- **`ListThread` sends a directory in blocks** as long as the buffer except for the last, whatever
`send` returns. -/
theorem sendDirectory_blocks {s' : ListingState}
    (h : run (serveList env) (sendDirectory n t) s = .done () s') : SentBlocks n s.sent s' :=
  (sound_sendDirectory t).ends s (sentWhole_start s) () s' h

end ClusterFtpd
