import ClusterFtpd.CommandLine
import ClusterFtpd.SimplifyInPlace

/-!
# Command lines out of a stream of bytes

`ReceiveLine` fills its buffer with what `recv` gives, looks for the end of a line, and leaves what
is behind it for the next call.  A line that does not fit is answered 500 once, and its characters
are dropped up to its end.

The reference cuts the whole stream at the ends of lines.  `framed_right` says that every division
of the stream leads to its lines, if no line that was too long ends inside a result of `recv`, its
length not a multiple of the size of the buffer: behind such an end the characters are read from
the wrong place (`line_lost`).
-/

namespace ClusterFtpd

open CString

/-! ### `ReceiveLine` -/

/-- The longest command line, and one more. -/
def MAX_COMMAND_LINE_LEN : ℕ := MAX_PATH + 32

/-- A line ends at a carriage return, at a line feed and at a zero. -/
def isLineEnd (c : Char) : Bool := c = '\r' || c = '\n' || c = NUL

/-- The buffer of a client entry; `bFlushNextLine` belongs to the call that is going on. -/
structure CmdBuffer where
  sCmdBuffer : Cells
  psNextCmd : Option ℕ := none
  iCmdRecvdLen : ℕ := 0
  nRemainingCharToParse : ℕ := 0
  bFlushNextLine : Bool := false

/-- The end of the loop over the characters: at the end of a line, with the characters that remain,
or behind all of them. -/
inductive Scan where
  | line (b : Cells) (iCmdLen nRemainingCharToParse : ℕ)
  | all (b : Cells) (iCmdRecvdLen : ℕ) (bFlushNextLine : Bool)

/-- The loop over the characters that were received.  Behind the end of a line that is dropped it
starts again at the beginning of the buffer, where the characters that remain are not. -/
def scanChars : (nRemainingCharToParse : ℕ) → (b : Cells) → (iCmdRecvdLen : ℕ) →
    (bFlushNextLine : Bool) → Option Scan
  | 0, b, k, flush => some (.all b k flush)
  | n + 1, b, k, flush => do
      let c ← read b k
      if isLineEnd c then
        if 0 < k ∧ flush = false then
          let b ← write b k NUL
          return .line b k n
        else
          let b ← move b k (k + 1) n
          scanChars n b (if flush then 0 else k) false
      else scanChars n b (k + 1) flush

namespace CmdBuffer

/-- The start of a call. -/
def enter (r : CmdBuffer) : Option CmdBuffer :=
  match r.psNextCmd with
  | some q =>
      if 0 < r.nRemainingCharToParse then do
        let b ← move r.sCmdBuffer 0 q r.nRemainingCharToParse
        return { r with
          sCmdBuffer := b, psNextCmd := none, iCmdRecvdLen := 0, bFlushNextLine := false }
      else return { r with iCmdRecvdLen := 0, bFlushNextLine := false }
  | none => return { r with iCmdRecvdLen := 0, bFlushNextLine := false }

/-- The loop over the characters. -/
def scan (r : CmdBuffer) : Option Scan :=
  scanChars r.nRemainingCharToParse r.sCmdBuffer r.iCmdRecvdLen r.bFlushNextLine

/-- Behind all characters. -/
def scanned (r : CmdBuffer) (b : Cells) (k : ℕ) (flush : Bool) : CmdBuffer :=
  { r with
    sCmdBuffer := b, iCmdRecvdLen := k, nRemainingCharToParse := 0, bFlushNextLine := flush }

/-- Behind a line. -/
def atLine (r : CmdBuffer) (b : Cells) (iCmdLen n : ℕ) : CmdBuffer :=
  { r with
    sCmdBuffer := b, psNextCmd := some (iCmdLen + 1), iCmdRecvdLen := iCmdLen
    nRemainingCharToParse := n }

/-- A buffer that is full is emptied, and its line is flushed. -/
def makeRoom (r : CmdBuffer) : CmdBuffer :=
  if MAX_COMMAND_LINE_LEN ≤ r.iCmdRecvdLen then
    { r with iCmdRecvdLen := 0, bFlushNextLine := true }
  else r

/-- `iRemainingCmdLen`, what `recv` is asked for. -/
def iRemainingCmdLen (r : CmdBuffer) : ℕ := MAX_COMMAND_LINE_LEN - r.iCmdRecvdLen

/-- `recv` gives the characters `c`. -/
def recv (r : CmdBuffer) (c : Text) : Option CmdBuffer := do
  let b ← copy r.sCmdBuffer r.iCmdRecvdLen c
  return { r with
    sCmdBuffer := b, nRemainingCharToParse := r.nRemainingCharToParse + c.length }

end CmdBuffer

/-! ### The processing of a line -/

/-- The loop that converts the command to upper case. -/
def upperIn : ℕ → Cells → ℕ → Option Cells
  | 0, _, _ => none
  | n + 1, b, p => do
      let c ← read b p
      if c = NUL then return b
      else
        let b ← write b p (toupper c)
        upperIn n b (p + 1)

/-- `ParseLine`, what it writes, and `pszCmdArg`. -/
def parseLineIn (n : ℕ) (b : Cells) : Option (Cells × Option ℕ) := do
  let line ← stringAt NUL b 0
  if ' ' ∈ line then
    let b ← write b (line.idxOf ' ') NUL
    let b ← upperIn n b 0
    return (b, some (line.idxOf ' ' + 1))
  else
    let b ← upperIn n b 0
    return (b, none)

/-- What `BuildVirtualPath` writes to the path it is asked for, at the pointer `p`. -/
def simplifyAskedIn (n p : ℕ) (b : Cells) : Option Cells := do
  let c ← read b p
  if c = '/' then
    let path ← simplifyPathIn n (b.drop p)
    return b.take p ++ path
  else return b

/-- What the processing of a line makes of the buffer.  The path that a command builds is its
argument, or what is behind the options of a listing. -/
inductive Processed (b : Cells) : Cells → Prop where
  | parsed {b' : Cells} {pszCmdArg : Option ℕ} :
      Arrives (fun n => parseLineIn n b) (fun o => o = (b', pszCmdArg)) → Processed b b'
  | simplified {b₁ b' : Cells} {a p : ℕ} {arg : Text} :
      Arrives (fun n => parseLineIn n b) (fun o => o = (b₁, some a)) →
      stringAt NUL b₁ a = some arg → a ≤ p → p ≤ a + arg.length →
      Arrives (fun n => simplifyAskedIn n p b₁) (fun b => b = b') → Processed b b'

/-! ### A connection -/

/-- What a client is given: a line that is returned, and the reply 500. -/
inductive Framing where
  | line (text : Text)
  | tooLong
  deriving DecidableEq

/-- Where the server is: outside `ReceiveLine`, inside, or with a line that was returned. -/
inductive Phase where
  | outside | inside | returned
  deriving DecidableEq

/-- The reply to a line that does not fit. -/
def CmdBuffer.tells (r : CmdBuffer) : List Framing :=
  if MAX_COMMAND_LINE_LEN ≤ r.iCmdRecvdLen ∧ r.bFlushNextLine = false then [.tooLong] else []

/-- The runs of a connection: what `recv` has given, the buffer, and what was made of it. -/
inductive Receives : List Text → CmdBuffer → Phase → List Framing → Prop where
  | opened {b : Cells} : b.length = MAX_COMMAND_LINE_LEN + 1 →
      Receives [] { sCmdBuffer := b } .outside []
  | enter {recvs : List Text} {r r' : CmdBuffer} {fs : List Framing} :
      Receives recvs r .outside fs → r.enter = some r' → Receives recvs r' .inside fs
  | recv {recvs : List Text} {r r' : CmdBuffer} {fs : List Framing} {b : Cells} {k : ℕ}
      {flush : Bool} (c : Text) : Receives recvs r .inside fs → r.scan = some (.all b k flush) →
      c ≠ [] → c.length ≤ (r.scanned b k flush).makeRoom.iRemainingCmdLen →
      (r.scanned b k flush).makeRoom.recv c = some r' →
      Receives (recvs ++ [c]) r' .inside (fs ++ (r.scanned b k flush).tells)
  | line {recvs : List Text} {r : CmdBuffer} {fs : List Framing} {b : Cells} {iCmdLen n : ℕ}
      {text : Text} : Receives recvs r .inside fs → r.scan = some (.line b iCmdLen n) →
      stringAt NUL b 0 = some text →
      Receives recvs (r.atLine b iCmdLen n) .returned (fs ++ [.line text])
  | process {recvs : List Text} {r : CmdBuffer} {fs : List Framing} {b : Cells} :
      Receives recvs r .returned fs → Processed r.sCmdBuffer b →
      Receives recvs { r with sCmdBuffer := b } .outside fs

/-! ### The reference -/

/-- One more character, behind the pieces and the piece that has no end yet. -/
def cutStep (cut : List Text × Text) (c : Char) : List Text × Text :=
  if isLineEnd c then (cut.1 ++ [cut.2], []) else (cut.1, cut.2 ++ [c])

/-- The stream, cut at every end of a line: the pieces, and what is behind the last end. -/
def cut (stream : Text) : List Text × Text := stream.foldl cutStep ([], [])

/-- What a piece is given: nothing if it is empty, 500 if it is too long, else it is returned. -/
def framing (piece : Text) : List Framing :=
  if piece = [] then []
  else if MAX_COMMAND_LINE_LEN ≤ piece.length then [.tooLong]
  else [.line piece]

/-- What the stream is given; a piece without an end is too long as soon as it is. -/
def reference (stream : Text) : List Framing :=
  (cut stream).1.flatMap framing ++
    if MAX_COMMAND_LINE_LEN ≤ (cut stream).2.length then [.tooLong] else []

/-- What is behind the last end of a line. -/
def lastPiece (stream : Text) : Text := (cut stream).2

theorem cut_append_char (stream : Text) (c : Char) :
    cut (stream ++ [c]) = cutStep (cut stream) c := by
  unfold cut
  rw [List.foldl_append]
  rfl

variable {stream : Text} {c : Char}

theorem lastPiece_end (h : isLineEnd c = true) : lastPiece (stream ++ [c]) = [] := by
  rw [lastPiece, cut_append_char, cutStep, if_pos h]

theorem lastPiece_char (h : isLineEnd c = false) :
    lastPiece (stream ++ [c]) = lastPiece stream ++ [c] := by
  rw [lastPiece, cut_append_char, cutStep, if_neg (by simp [h])]
  rfl

/-- A piece has no ends of lines. -/
theorem lastPiece_mem {d : Char} (h : d ∈ lastPiece stream) : isLineEnd d = false := by
  induction stream using List.reverseRecOn with
  | nil => exact absurd h (by simp [lastPiece, cut])
  | append_singleton stream c ih =>
      cases hc : isLineEnd c with
      | true =>
          rw [lastPiece_end hc] at h
          exact absurd h (by simp)
      | false =>
          rw [lastPiece_char hc, List.mem_append, List.mem_singleton] at h
          obtain h | rfl := h
          · exact ih h
          · exact hc

theorem max_pos : 0 < MAX_COMMAND_LINE_LEN := by decide

/-- The end of a piece. -/
theorem reference_end (h : isLineEnd c = true) : reference (stream ++ [c]) =
    (cut stream).1.flatMap framing ++ framing (lastPiece stream) := by
  have hpos := max_pos
  have hempty : ¬ MAX_COMMAND_LINE_LEN ≤ ([] : Text).length := Nat.not_le.mpr hpos
  rw [reference, cut_append_char, cutStep, if_pos h, if_neg hempty, List.append_nil,
    List.flatMap_append, List.flatMap_singleton]
  rfl

/-- One more character of a piece. -/
theorem reference_char (h : isLineEnd c = false) : reference (stream ++ [c]) =
    reference stream ++
      if (lastPiece stream).length + 1 = MAX_COMMAND_LINE_LEN then [.tooLong] else [] := by
  rw [reference, cut_append_char, cutStep, if_neg (by simp [h]), reference, List.append_assoc,
    List.length_append, List.length_singleton]
  show _ ++ (if MAX_COMMAND_LINE_LEN ≤ (lastPiece stream).length + 1 then _ else _) =
    _ ++ ((if MAX_COMMAND_LINE_LEN ≤ (lastPiece stream).length then _ else _) ++ _)
  congr 1
  split_ifs <;> first | rfl | omega

theorem reference_end_line (h : isLineEnd c = true) (hne : lastPiece stream ≠ [])
    (hlt : (lastPiece stream).length < MAX_COMMAND_LINE_LEN) :
    reference (stream ++ [c]) = reference stream ++ [.line (lastPiece stream)] := by
  have hlt' : ¬ MAX_COMMAND_LINE_LEN ≤ (cut stream).2.length := Nat.not_le.mpr hlt
  rw [reference_end h, framing, if_neg hne, if_neg (by omega), reference, if_neg hlt',
    List.append_nil]

/-- The end of an empty piece, and of one that was too long. -/
theorem reference_end_none (h : isLineEnd c = true)
    (hnone : lastPiece stream = [] ∨ MAX_COMMAND_LINE_LEN ≤ (lastPiece stream).length) :
    reference (stream ++ [c]) = reference stream := by
  have hpos := max_pos
  rw [reference_end h, reference]
  show _ = _ ++ (if MAX_COMMAND_LINE_LEN ≤ (lastPiece stream).length then _ else _)
  rw [framing]
  obtain hnil | hlong := hnone
  · rw [hnil, if_pos rfl, List.length_nil, if_neg (Nat.not_le.mpr hpos)]
  · have hne : lastPiece stream ≠ [] := by
      intro hnil
      rw [hnil, List.length_nil] at hlong
      omega
    rw [if_neg hne, if_pos hlong, if_pos hlong]

/-! ### The loop over the characters -/

/-- No end of a line that was too long, but for those that come first in a full buffer or last in a
result of `recv`. -/
def HarmlessCuts (recvs : List Text) : Prop :=
  ∀ (before : List Text) (done : Text) (c : Char) (rest : Text) (after : List Text),
    recvs = before ++ (done ++ c :: rest) :: after → isLineEnd c = true →
    MAX_COMMAND_LINE_LEN ≤ (lastPiece (before.flatten ++ done)).length →
    MAX_COMMAND_LINE_LEN ∣ (lastPiece (before.flatten ++ done)).length ∨ rest = []

/-- The same, for characters behind `parsed`. -/
def HarmlessEnds (parsed u : Text) : Prop :=
  ∀ (x : Text) (c : Char) (rest : Text), u = x ++ c :: rest → isLineEnd c = true →
    MAX_COMMAND_LINE_LEN ≤ (lastPiece (parsed ++ x)).length →
    MAX_COMMAND_LINE_LEN ∣ (lastPiece (parsed ++ x)).length ∨ rest = []

/-- The loop stands behind `parsed`, and `u` remains. -/
structure Scanning (parsed u : Text) (b : Cells) (k : ℕ) (flush : Bool) : Prop where
  size : b.length = MAX_COMMAND_LINE_LEN + 1
  room : k + u.length ≤ MAX_COMMAND_LINE_LEN
  cells : ∃ j, b.drop k = u ++ j
  piece : flush = false → b.take k = lastPiece parsed
  skipped : flush = true → MAX_COMMAND_LINE_LEN ≤ (lastPiece parsed).length ∧
    (lastPiece parsed).length % MAX_COMMAND_LINE_LEN = k % MAX_COMMAND_LINE_LEN

/-- What the client still has to be told. -/
def untold (k : ℕ) (flush : Bool) : List Framing :=
  if MAX_COMMAND_LINE_LEN ≤ k ∧ flush = false then [.tooLong] else []

/-- A line stands in the buffer, and the characters `u` that remain behind it. -/
structure AtLine (line u : Text) (b : Cells) : Prop where
  size : b.length = MAX_COMMAND_LINE_LEN + 1
  ne_nil : line ≠ []
  notMem : NUL ∉ line
  cells : ∃ j, b = line ++ NUL :: (u ++ j)

/-- Where the loop ends. -/
inductive Scanned (parsed u : Text) (fs : List Framing) : Scan → Prop where
  | line {x v line : Text} {c : Char} {b : Cells} : u = x ++ c :: v → AtLine line v b →
      lastPiece (parsed ++ (x ++ [c])) = [] →
      fs ++ [.line line] = reference (parsed ++ (x ++ [c])) →
      Scanned parsed u fs (.line b line.length v.length)
  | all {b : Cells} {k : ℕ} {flush : Bool} : Scanning (parsed ++ u) [] b k flush →
      fs ++ untold k flush = reference (parsed ++ u) → Scanned parsed u fs (.all b k flush)

variable {parsed u v x line : Text} {b b' : Cells} {k : ℕ} {flush : Bool} {fs : List Framing}

theorem Scanning.length_piece (h : Scanning parsed u b k false) :
    (lastPiece parsed).length = k := by
  have hsize := h.size
  have hroom := h.room
  rw [← h.piece rfl, List.length_take]
  omega

theorem Scanning.read (h : Scanning parsed (c :: u) b k flush) : read b k = some c := by
  obtain ⟨j, hj⟩ := h.cells
  have hread := @List.getElem?_drop _ b k 0
  rw [hj] at hread
  exact hread.symm

/-- The cells in front of the next character and behind it. -/
theorem Scanning.split (h : Scanning parsed (c :: u) b k flush) :
    ∃ j, b = b.take k ++ c :: (u ++ j) ∧ (b.take k).length = k := by
  obtain ⟨j, hj⟩ := h.cells
  have hroom := h.room
  have hsize := h.size
  refine ⟨j, ?_, ?_⟩
  · have happ := List.take_append_drop k b
    rw [hj] at happ
    exact happ.symm
  · rw [List.length_take]
    omega

theorem HarmlessEnds.tail (h : HarmlessEnds parsed (c :: u)) : HarmlessEnds (parsed ++ [c]) u := by
  intro x d rest hu hd hlong
  rw [List.append_assoc] at hlong ⊢
  exact h (c :: x) d rest (by rw [hu]; rfl) hd hlong

theorem Scanned.later {s : Scan} (h : Scanned (parsed ++ [c]) u fs s) :
    Scanned parsed (c :: u) fs s := by
  cases h with
  | @line x v line d b hu hline hlast hfs =>
      rw [List.append_assoc] at hlast hfs
      have hu' : c :: u = (c :: x) ++ d :: v := by rw [hu, List.cons_append]
      exact .line hu' hline hlast hfs
  | all hscan hfs =>
      rw [List.append_assoc] at hscan hfs
      exact .all hscan hfs

/-- A character within a piece. -/
theorem Scanning.char (h : Scanning parsed (c :: u) b k flush) (hc : isLineEnd c = false) :
    Scanning (parsed ++ [c]) u b (k + 1) flush := by
  obtain ⟨j, hj⟩ := h.cells
  have hroom := h.room
  rw [List.length_cons] at hroom
  refine ⟨h.size, by omega, ⟨j, ?_⟩, ?_, ?_⟩
  · rw [← List.drop_drop, hj]
    rfl
  · intro hflush
    have hread : b[k]? = some c := h.read
    rw [List.take_add_one, hread, h.piece hflush, lastPiece_char hc]
    rfl
  · intro hflush
    obtain ⟨hlong, hmod⟩ := h.skipped hflush
    rw [lastPiece_char hc, List.length_append, List.length_singleton]
    refine ⟨by omega, ?_⟩
    rw [Nat.add_mod, hmod, ← Nat.add_mod]

/-- The end of a line that is returned. -/
theorem Scanning.atLine (h : Scanning parsed (c :: u) b k false) (hk : 0 < k) :
    ∃ b', write b k NUL = some b' ∧ AtLine (lastPiece parsed) u b' := by
  obtain ⟨j, hb, hlen⟩ := h.split
  have hpiece := h.piece rfl
  have hwrite := write_append (b.take k) c NUL (u ++ j)
  rw [← hb, hlen] at hwrite
  refine ⟨_, hwrite, (length_of_write hwrite).trans h.size, ?_, ?_, j, by rw [hpiece]⟩
  · intro hnil
    have hlength := h.length_piece
    rw [hnil, List.length_nil] at hlength
    omega
  · intro hmem
    have hnot := lastPiece_mem hmem
    exact absurd hnot (by decide)

/-- The end of an empty line, and of one that was dropped. -/
theorem Scanning.skip (h : Scanning parsed (c :: u) b k flush) (hc : isLineEnd c = true)
    (hk : k = 0 ∨ u = []) :
    ∃ b', move b k (k + 1) u.length = some b' ∧ Scanning (parsed ++ [c]) u b' 0 false := by
  have hroom := h.room
  rw [List.length_cons] at hroom
  have hmoved : ∃ b', move b k (k + 1) u.length = some b' ∧ ∃ j, b' = u ++ j := by
    obtain rfl | rfl := hk
    · obtain ⟨j, hb, -⟩ := h.split
      have hmove := move_append [] [c] u j
      rw [List.take_zero] at hb
      have hmove' : move b 0 (0 + 1) u.length = some (u ++ (([c] ++ u).drop u.length ++ j)) := by
        rw [hb]
        exact hmove
      exact ⟨_, hmove', _, rfl⟩
    · have hsize := h.size
      have hfits : k + ([] : Text).length ≤ b.length ∧ k + 1 + ([] : Text).length ≤ b.length := by
        rw [List.length_nil]
        omega
      exact ⟨_, if_pos hfits, _, rfl⟩
  obtain ⟨b', hmove, j, hj⟩ := hmoved
  refine ⟨b', hmove, (length_of_move hmove).trans h.size, by omega, ⟨j, hj⟩, ?_, ?_⟩
  · intro _
    rw [lastPiece_end hc]
    rfl
  · intro hflush
    exact absurd hflush (by simp)

/-- A line that is not returned is empty or too long, and its end is at the beginning of the buffer
or nothing is behind it. -/
theorem Scanning.skips (h : Scanning parsed (c :: u) b k flush)
    (hends : HarmlessEnds parsed (c :: u)) (hc : isLineEnd c = true)
    (hline : ¬ (0 < k ∧ flush = false)) : (k = 0 ∨ u = []) ∧
      (lastPiece parsed = [] ∨ MAX_COMMAND_LINE_LEN ≤ (lastPiece parsed).length) := by
  have hroom := h.room
  rw [List.length_cons] at hroom
  cases flush with
  | false =>
      have hk : k = 0 := by
        by_contra hne
        exact hline ⟨Nat.pos_of_ne_zero hne, rfl⟩
      have hpiece := h.piece rfl
      rw [hk, List.take_zero] at hpiece
      exact ⟨.inl hk, .inl hpiece.symm⟩
  | true =>
      obtain ⟨hlong, hmod⟩ := h.skipped rfl
      refine ⟨?_, .inr hlong⟩
      have hharmless := hends [] c u rfl hc (by rw [List.append_nil]; exact hlong)
      rw [List.append_nil] at hharmless
      obtain hdvd | hrest := hharmless
      · rw [Nat.mod_eq_zero_of_dvd hdvd, Nat.mod_eq_of_lt (by omega)] at hmod
        exact .inl hmod.symm
      · exact .inr hrest

/-- **The loop over the characters** ends at the next line or behind all characters. -/
theorem scanned_of_scanning (h : Scanning parsed u b k flush) (hends : HarmlessEnds parsed u)
    (hfs : fs ++ untold k flush = reference parsed) :
    ∃ s, scanChars u.length b k flush = some s ∧ Scanned parsed u fs s := by
  induction u generalizing parsed b k flush with
  | nil =>
      refine ⟨_, rfl, .all ?_ ?_⟩
      · rw [List.append_nil]
        exact h
      · rw [List.append_nil]
        exact hfs
  | cons c u ih =>
      have hroom := h.room
      rw [List.length_cons] at hroom
      have htold : untold k flush = [] := if_neg fun hfull => by omega
      rw [htold, List.append_nil] at hfs
      rw [List.length_cons, scanChars, h.read]
      show ∃ s, (if isLineEnd c = true then _ else _) = some s ∧ _
      cases hc : isLineEnd c with
      | false =>
          rw [if_neg (by simp)]
          have hnext : fs ++ untold (k + 1) flush = reference (parsed ++ [c]) := by
            rw [reference_char hc, ← hfs]
            congr 1
            cases flush with
            | true =>
                obtain ⟨hlong, -⟩ := h.skipped rfl
                rw [untold, if_neg (by simp), if_neg (by omega)]
            | false =>
                rw [untold, h.length_piece]
                by_cases hfull : k + 1 = MAX_COMMAND_LINE_LEN
                · rw [if_pos hfull, if_pos ⟨by omega, rfl⟩]
                · rw [if_neg hfull, if_neg fun hlong => hfull (by omega)]
          obtain ⟨s, hs, hscanned⟩ := ih (h.char hc) hends.tail hnext
          exact ⟨s, hs, hscanned.later⟩
      | true =>
          rw [if_pos rfl]
          by_cases hline : 0 < k ∧ flush = false
          · obtain ⟨hk, rfl⟩ := hline
            obtain ⟨b', hwrite, hat⟩ := h.atLine hk
            have hlength := h.length_piece
            rw [if_pos ⟨hk, rfl⟩, hwrite]
            have hline : fs ++ [.line (lastPiece parsed)] = reference (parsed ++ [c]) := by
              have hlt : (lastPiece parsed).length < MAX_COMMAND_LINE_LEN := by omega
              rw [reference_end_line hc hat.ne_nil hlt, hfs]
            have hscanned : Scanned parsed (c :: u) fs
                (.line b' (lastPiece parsed).length u.length) :=
              .line (x := []) rfl hat (lastPiece_end hc) hline
            rw [hlength] at hscanned
            exact ⟨_, rfl, hscanned⟩
          · rw [if_neg hline]
            obtain ⟨hk, hnone⟩ := h.skips hends hc hline
            obtain ⟨b', hmove, hscan⟩ := h.skip hc hk
            have hnext : fs ++ untold 0 false = reference (parsed ++ [c]) := by
              rw [reference_end_none hc hnone, untold, if_neg (by have := max_pos; omega),
                List.append_nil, hfs]
            obtain ⟨s, hs, hscanned⟩ := ih hscan hends.tail hnext
            refine ⟨s, ?_, hscanned.later⟩
            rw [hmove, ← hs]
            have hstart : (if flush = true then 0 else k) = 0 := by
              cases flush with
              | true => rfl
              | false =>
                  have hzero : ¬ 0 < k := fun hk => hline ⟨hk, rfl⟩
                  rw [if_neg (by simp)]
                  omega
            show scanChars u.length b' (if flush = true then 0 else k) false = _
            rw [hstart]

/-! ### `recv` -/

/-- A buffer that is full is emptied. -/
theorem Scanning.flushed (h : Scanning parsed [] b k flush) (hfull : MAX_COMMAND_LINE_LEN ≤ k) :
    Scanning parsed [] b 0 true := by
  have hroom := h.room
  rw [List.length_nil, Nat.add_zero] at hroom
  have hk : k = MAX_COMMAND_LINE_LEN := Nat.le_antisymm hroom hfull
  refine ⟨h.size, Nat.zero_le _, ⟨b, rfl⟩, fun hflush => absurd hflush (by simp), fun _ => ?_⟩
  cases flush with
  | true =>
      obtain ⟨hlong, hmod⟩ := h.skipped rfl
      rw [hk, Nat.mod_self] at hmod
      exact ⟨hlong, by rw [hmod, Nat.zero_mod]⟩
  | false =>
      have hlength := h.length_piece
      rw [hlength, hk, Nat.mod_self, Nat.zero_mod]
      exact ⟨le_refl _, rfl⟩

/-- What `recv` gives comes behind what is there. -/
theorem Scanning.fill {text : Text} (h : Scanning parsed [] b k flush)
    (hroom : text.length ≤ MAX_COMMAND_LINE_LEN - k) :
    ∃ b', copy b k text = some b' ∧ Scanning parsed text b' k flush := by
  have hk := h.room
  rw [List.length_nil, Nat.add_zero] at hk
  have hsize := h.size
  have hle : k + text.length ≤ b.length := by omega
  have hlen : (b.take k).length = k := by
    rw [List.length_take]
    omega
  refine ⟨_, if_pos hle, ?_, by omega, ?_, ?_, h.skipped⟩
  · simp only [List.length_append, List.length_take, List.length_drop]
    omega
  · exact ⟨_, List.drop_left' hlen⟩
  · intro hflush
    rw [List.take_left' hlen]
    exact h.piece hflush

/-- `recv` is given room, and what it gives is scanned next. -/
theorem Scanning.recv {r : CmdBuffer} {text : Text}
    (h : Scanning parsed [] b k flush) (hfs : fs ++ untold k flush = reference parsed)
    (hroom : text.length ≤ (r.scanned b k flush).makeRoom.iRemainingCmdLen) :
    ∃ r', (r.scanned b k flush).makeRoom.recv text = some r' ∧
      r'.nRemainingCharToParse = text.length ∧
      Scanning parsed text r'.sCmdBuffer r'.iCmdRecvdLen r'.bFlushNextLine ∧
      fs ++ (r.scanned b k flush).tells ++ untold r'.iCmdRecvdLen r'.bFlushNextLine =
        reference parsed := by
  have hpos := max_pos
  have htells : fs ++ (r.scanned b k flush).tells = reference parsed := hfs
  by_cases hfull : MAX_COMMAND_LINE_LEN ≤ k
  · have hmade : (r.scanned b k flush).makeRoom = r.scanned b 0 true := if_pos hfull
    rw [hmade] at hroom ⊢
    obtain ⟨b', hcopy, hscan⟩ := (h.flushed hfull).fill hroom
    have hrecv : (r.scanned b 0 true).recv text = some { r.scanned b' 0 true with
        nRemainingCharToParse := 0 + text.length } := by
      show (copy b 0 text >>= _) = _
      rw [hcopy]
      rfl
    refine ⟨_, hrecv, Nat.zero_add _, hscan, ?_⟩
    rw [htells, untold, if_neg (by simp [CmdBuffer.scanned]), List.append_nil]
  · have hmade : (r.scanned b k flush).makeRoom = r.scanned b k flush := if_neg hfull
    rw [hmade] at hroom ⊢
    obtain ⟨b', hcopy, hscan⟩ := h.fill hroom
    have hrecv : (r.scanned b k flush).recv text = some { r.scanned b' k flush with
        nRemainingCharToParse := 0 + text.length } := by
      show (copy b k text >>= _) = _
      rw [hcopy]
      rfl
    have huntold : untold k flush = [] := if_neg fun hboth => hfull hboth.1
    refine ⟨_, hrecv, Nat.zero_add _, hscan, ?_⟩
    rw [htells]
    show reference parsed ++ untold k flush = _
    rw [huntold, List.append_nil]

/-! ### The processing of a line -/

theorem upperIn_spec (x y rest : Text) (hy : NUL ∉ y) :
    Arrives (fun n => upperIn n (x ++ (y ++ NUL :: rest)) x.length)
      fun b => b = x ++ (y.map toupper ++ NUL :: rest) := by
  induction y generalizing x with
  | nil =>
      refine Arrives.last rfl ?_
      intro n
      rw [upperIn, List.nil_append, read_append]
      rfl
  | cons c y ih =>
      have hc : c ≠ NUL := by
        intro heq
        exact hy (by simp [heq])
      have hrest : NUL ∉ y := fun hmem => hy (List.mem_cons_of_mem c hmem)
      have hnext := ih (x ++ [toupper c]) hrest
      refine (Arrives.round hnext ?_).mono ?_
      · intro n
        rw [upperIn, List.cons_append, read_append]
        show (if c = NUL then _ else _) = _
        rw [if_neg hc, write_append, List.length_append, List.append_assoc]
        rfl
      · intro b hb
        rw [hb, List.append_assoc]
        rfl

/-- A result that is arrived at is the result. -/
theorem arrives_unique {β : Type} {F : ℕ → Option β} {P : β → Prop} {v : β} (h : Arrives F P)
    (hv : Arrives F fun w => w = v) : P v := by
  obtain ⟨N, w, hF, hw⟩ := h
  obtain ⟨M, w', hF', rfl⟩ := hv
  have heq := (hF (max N M) (by omega)).symm.trans (hF' (max N M) (by omega))
  rw [Option.some.injEq] at heq
  rw [← heq]
  exact hw

/-- **`ParseLine`** writes within the line. -/
theorem parseLineIn_spec (rest : Text) (hnot : NUL ∉ line) :
    Arrives (fun n => parseLineIn n (line ++ NUL :: rest)) fun o =>
      ∃ w : Text, w.length = line.length ∧ o.1 = w ++ NUL :: rest ∧
        ∀ a, o.2 = some a → a ≤ line.length := by
  have hstring : stringAt NUL (line ++ NUL :: rest) 0 = some line := string_append hnot rest
  by_cases hblank : ' ' ∈ line
  · obtain ⟨word, arg, rfl, hword⟩ := List.eq_append_cons_of_mem hblank
    have hidx : (word ++ ' ' :: arg).idxOf ' ' = word.length := by
      rw [List.idxOf_append_of_notMem hword, List.idxOf_cons_self, Nat.add_zero]
    have hnul : NUL ∉ word := fun hmem => hnot (List.mem_append_left _ hmem)
    have hwrite : write (word ++ ' ' :: arg ++ NUL :: rest) word.length NUL =
        some (word ++ NUL :: (arg ++ NUL :: rest)) := by
      rw [List.append_assoc]
      exact write_append word ' ' NUL (arg ++ NUL :: rest)
    have hupper := upperIn_spec [] word (arg ++ NUL :: rest) hnul
    refine (hupper.bind (G := fun _ b => some (b, some (word.length + 1))) fun b hb =>
      Arrives.of_some ⟨_, rfl, word.map toupper ++ NUL :: arg, ?_, ?_, ?_⟩).of_agree ?_
    rotate_left
    · simp only [List.length_append, List.length_map, List.length_cons]
    · rw [hb, List.append_assoc]
      rfl
    · intro a ha
      rw [Option.some.injEq] at ha
      rw [← ha, List.length_append, List.length_cons]
      omega
    · intro n
      rw [parseLineIn, hstring]
      show (if ' ' ∈ word ++ ' ' :: arg then _ else _) = _
      rw [if_pos hblank, hidx, hwrite]
      rfl
  · have hupper := upperIn_spec [] line rest hnot
    refine (hupper.bind (G := fun _ b => some (b, none)) fun b hb => Arrives.of_some
      ⟨_, rfl, line.map toupper, List.length_map _, hb, fun a ha =>
        absurd ha (by simp)⟩).of_agree ?_
    intro n
    rw [parseLineIn, hstring]
    show (if ' ' ∈ line then _ else _) = _
    rw [if_neg hblank]
    rfl

theorem length_of_stringAt {w arg rest : Text} {a : ℕ} (ha : a ≤ w.length)
    (h : stringAt NUL (w ++ NUL :: rest) a = some arg) : a + arg.length ≤ w.length := by
  have hshort : ∀ y s : Text, string NUL (y ++ NUL :: rest) = some s → s.length ≤ y.length := by
    intro y
    induction y with
    | nil =>
        intro s hs
        rw [List.nil_append, string, if_pos rfl, Option.some.injEq] at hs
        rw [← hs]
    | cons c y ih =>
        intro s hs
        rw [List.cons_append, string] at hs
        by_cases hc : c = NUL
        · rw [if_pos hc, Option.some.injEq] at hs
          rw [← hs]
          exact Nat.zero_le _
        · rw [if_neg hc, Option.map_eq_some_iff] at hs
          obtain ⟨s', hs', rfl⟩ := hs
          exact Nat.succ_le_succ (ih s' hs')
  rw [stringAt, List.drop_append_of_le_length ha] at h
  have hle := hshort _ _ h
  rw [List.length_drop] at hle
  omega

/-- **`SimplifyPath` of an argument** writes within the line. -/
theorem simplifyAskedIn_spec {w : Text} (rest : Text) {p : ℕ} (hp : p ≤ w.length) :
    Arrives (fun n => simplifyAskedIn n p (w ++ NUL :: rest)) fun b =>
      ∃ w' : Text, w'.length = w.length + 1 ∧ b = w' ++ rest := by
  -- the string at `p` ends at the first terminator, in the line or behind it
  have hmem : NUL ∈ w.drop p ++ [NUL] := List.mem_append_right _ (List.mem_singleton_self _)
  obtain ⟨path, junk, hpath, hnot⟩ := List.eq_append_cons_of_mem hmem
  have hholds : Holds NUL (w.length - p + 1) (w.drop p ++ [NUL]) path := by
    refine ⟨hnot, ?_, junk, hpath⟩
    rw [List.length_append, List.length_drop, List.length_singleton]
  have hrun := (simplifyPathIn_spec hholds).behind fun n => simplifyPathIn_lifts rest _ n
  have hdrop : (w ++ NUL :: rest).drop p = w.drop p ++ [NUL] ++ rest := by
    rw [List.drop_append_of_le_length hp, List.append_assoc]
    rfl
  have htake : (w ++ NUL :: rest).take p = w.take p := List.take_append_of_le_length hp
  have hread : ∃ c, read (w ++ NUL :: rest) p = some c := by
    refine ⟨_, List.getElem?_eq_getElem ?_⟩
    rw [List.length_append, List.length_cons]
    omega
  obtain ⟨c, hc⟩ := hread
  by_cases hslash : c = '/'
  · refine (hrun.bind (G := fun _ path => some (w.take p ++ path)) fun b hb => ?_).of_agree ?_
    · obtain ⟨a, ha, rfl⟩ := hb
      refine Arrives.of_some ⟨_, rfl, w.take p ++ a, ?_, by rw [List.append_assoc]⟩
      rw [List.length_append, ha.size, List.length_take]
      omega
    · intro n
      rw [simplifyAskedIn, hc]
      show (if c = '/' then _ else _) = _
      rw [if_pos hslash, hdrop, htake]
      rfl
  · refine Arrives.last (v := w ++ NUL :: rest) ⟨w ++ [NUL], by simp, by simp⟩ ?_
    intro n
    rw [simplifyAskedIn, hc]
    show (if c = '/' then _ else _) = _
    rw [if_neg hslash]
    rfl

/-- **The processing of a line** stays within it. -/
theorem Processed.behind {rest : Text} (h : Processed b b') (hnot : NUL ∉ line)
    (hb : b = line ++ NUL :: rest) : ∃ w : Text, w.length = line.length + 1 ∧ b' = w ++ rest := by
  subst hb
  cases h with
  | parsed hparse =>
      obtain ⟨w, hw, hcells, -⟩ := arrives_unique (parseLineIn_spec rest hnot) hparse
      refine ⟨w ++ [NUL], ?_, ?_⟩
      · rw [List.length_append, hw]
        rfl
      · rw [List.append_assoc]
        exact hcells
  | simplified hparse hstring hap hpa hsimplify =>
      obtain ⟨w, hw, rfl, harg⟩ := arrives_unique (parseLineIn_spec rest hnot) hparse
      have ha := harg _ rfl
      have hend := length_of_stringAt (by omega) hstring
      obtain ⟨w', hw', hcells⟩ :=
        arrives_unique (simplifyAskedIn_spec rest (show _ ≤ w.length by omega)) hsimplify
      exact ⟨w', hw'.trans (by rw [hw]), hcells⟩

/-- The processing ends, and every access to the buffer is within it. -/
structure Processes (b : Cells) : Prop where
  parses : ∃ o, Arrives (fun n => parseLineIn n b) fun v => v = o
  simplifies : ∀ b₁ a p arg, Arrives (fun n => parseLineIn n b) (fun o => o = (b₁, some a)) →
    stringAt NUL b₁ a = some arg → a ≤ p → p ≤ a + arg.length →
    ∃ b', Arrives (fun n => simplifyAskedIn n p b₁) fun v => v = b'

theorem arrives_result {β : Type} {F : ℕ → Option β} {P : β → Prop} (h : Arrives F P) :
    ∃ w, Arrives F fun v => v = w := by
  obtain ⟨N, w, hF, -⟩ := h
  exact ⟨w, N, w, hF, rfl⟩

theorem AtLine.processes (h : AtLine line u b) : Processes b := by
  obtain ⟨j, hb⟩ := h.cells
  subst hb
  refine ⟨arrives_result (parseLineIn_spec (u ++ j) h.notMem), ?_⟩
  intro b₁ a p arg hparse hstring hap hpa
  obtain ⟨w, hw, hcells, harg⟩ := arrives_unique (parseLineIn_spec (u ++ j) h.notMem) hparse
  have ha := harg _ rfl
  dsimp only at hcells
  rw [hcells] at hstring ⊢
  have hend := length_of_stringAt (by omega) hstring
  exact arrives_result (simplifyAskedIn_spec (u ++ j) (by omega))

/-! ### The runs of a connection -/

/-- What `recv` gave last ends with the characters that remain. -/
inductive Remains : List Text → Text → Text → Prop where
  | nothing {recvs : List Text} : Remains recvs recvs.flatten []
  | part {before : List Text} {done u : Text} :
      Remains (before ++ [done ++ u]) (before.flatten ++ done) u

variable {recvs : List Text} {r : CmdBuffer} {phase : Phase}

theorem Remains.flatten (h : Remains recvs parsed u) : recvs.flatten = parsed ++ u := by
  cases h with
  | nothing => rw [List.append_nil]
  | part => simp

/-- Characters that were looked at. -/
theorem Remains.advance (h : Remains recvs parsed (x ++ u)) : Remains recvs (parsed ++ x) u := by
  generalize hv : x ++ u = v at h
  cases h with
  | nothing =>
      rw [List.append_eq_nil_iff] at hv
      rw [hv.1, hv.2, List.append_nil]
      exact .nothing
  | @part before done v =>
      rw [← hv, ← List.append_assoc, List.append_assoc before.flatten]
      exact .part

theorem Remains.harmless (h : Remains recvs parsed u) (hcuts : HarmlessCuts recvs) :
    HarmlessEnds parsed u := by
  intro x c rest hu hc hlong
  cases h with
  | nothing => exact absurd hu (by simp)
  | @part before done u =>
      rw [List.append_assoc] at hlong ⊢
      refine hcuts before (done ++ x) c rest [] ?_ hc hlong
      rw [hu, List.append_assoc]

/-- The invariant of a connection: what has been looked at has been answered, and what remains
stands in the buffer where the next call looks for it. -/
inductive FramingInv (recvs : List Text) : CmdBuffer → Phase → List Framing → Prop where
  | fresh {b : Cells} : b.length = MAX_COMMAND_LINE_LEN + 1 → recvs = [] →
      FramingInv recvs { sCmdBuffer := b } .outside []
  | inside {r : CmdBuffer} {fs : List Framing} {parsed u : Text} : Remains recvs parsed u →
      r.nRemainingCharToParse = u.length →
      Scanning parsed u r.sCmdBuffer r.iCmdRecvdLen r.bFlushNextLine →
      fs ++ untold r.iCmdRecvdLen r.bFlushNextLine = reference parsed →
      FramingInv recvs r .inside fs
  | returned {r : CmdBuffer} {fs : List Framing} {parsed u line : Text} : Remains recvs parsed u →
      r.nRemainingCharToParse = u.length → r.psNextCmd = some (line.length + 1) →
      AtLine line u r.sCmdBuffer → lastPiece parsed = [] → fs = reference parsed →
      FramingInv recvs r .returned fs
  | outside {r : CmdBuffer} {fs : List Framing} {parsed u : Text} {q : ℕ} : Remains recvs parsed u →
      r.nRemainingCharToParse = u.length → r.psNextCmd = some q → 0 < q →
      r.sCmdBuffer.length = MAX_COMMAND_LINE_LEN + 1 → (∃ j, r.sCmdBuffer.drop q = u ++ j) →
      lastPiece parsed = [] → fs = reference parsed → FramingInv recvs r .outside fs

theorem HarmlessCuts.before {c : Text} (h : HarmlessCuts (recvs ++ [c])) : HarmlessCuts recvs := by
  intro before done d rest after heq hd hlong
  refine h before done d rest (after ++ [c]) ?_ hd hlong
  rw [heq, List.append_assoc]
  rfl

/-- Nothing is taken back. -/
theorem reference_append (stream u : Text) :
    ∃ later, reference (stream ++ u) = reference stream ++ later := by
  induction u generalizing stream with
  | nil => exact ⟨[], by rw [List.append_nil, List.append_nil]⟩
  | cons c u ih =>
      have hchar : ∃ more, reference (stream ++ [c]) = reference stream ++ more := by
        cases hc : isLineEnd c with
        | false => exact ⟨_, reference_char hc⟩
        | true =>
            by_cases hnone : lastPiece stream = [] ∨
                MAX_COMMAND_LINE_LEN ≤ (lastPiece stream).length
            · exact ⟨[], by rw [reference_end_none hc hnone, List.append_nil]⟩
            · rw [not_or] at hnone
              exact ⟨_, reference_end_line hc hnone.1 (Nat.not_le.mp hnone.2)⟩
      obtain ⟨more, hmore⟩ := hchar
      obtain ⟨later, hlater⟩ := ih (stream ++ [c])
      refine ⟨more ++ later, ?_⟩
      rw [← List.append_assoc, ← hmore, ← hlater, List.append_assoc]
      rfl

/-- The start of a call finds the characters that remain. -/
theorem FramingInv.enter (h : FramingInv recvs r .outside fs) :
    ∃ r', r.enter = some r' ∧ FramingInv recvs r' .inside fs := by
  have hpos := max_pos
  have huntold : untold 0 false = [] := if_neg fun hboth => absurd hboth.1 (Nat.not_le.mpr hpos)
  cases h with
  | @fresh b hsize hrecvs =>
      refine ⟨{ sCmdBuffer := b }, rfl, ?_⟩
      subst hrecvs
      refine .inside .nothing rfl ⟨hsize, Nat.zero_le _, ⟨b, rfl⟩, fun _ => rfl, ?_⟩ ?_
      · intro hflush
        exact absurd hflush (by simp)
      · exact huntold
  | @outside _ _ parsed u q hremains hn hnext hq hsize hcells hlast hfs =>
      obtain ⟨j, hj⟩ := hcells
      have hlen : MAX_COMMAND_LINE_LEN + 1 - q = u.length + j.length := by
        have hlength := congrArg List.length hj
        rw [List.length_drop, hsize, List.length_append] at hlength
        exact hlength
      by_cases hsome : 0 < r.nRemainingCharToParse
      · have hmove : move r.sCmdBuffer 0 q u.length = some (r.sCmdBuffer.take 0 ++
            (r.sCmdBuffer.drop q).take u.length ++ r.sCmdBuffer.drop (0 + u.length)) := by
          refine if_pos ?_
          omega
        rw [hj, List.take_left' rfl, List.take_zero, List.nil_append] at hmove
        refine ⟨{ r with
          sCmdBuffer := u ++ r.sCmdBuffer.drop (0 + u.length), psNextCmd := none
          iCmdRecvdLen := 0, bFlushNextLine := false }, ?_, ?_⟩
        · rw [CmdBuffer.enter, hnext]
          dsimp only
          rw [if_pos hsome, hn, hmove]
          rfl
        · have hroom : 0 + u.length ≤ MAX_COMMAND_LINE_LEN := by omega
          refine .inside hremains hn
            ⟨(length_of_move hmove).trans hsize, hroom, ⟨_, rfl⟩, ?_, ?_⟩ ?_
          · intro _
            rw [hlast]
            rfl
          · intro hflush
            exact absurd hflush (by simp)
          · rw [huntold, List.append_nil, hfs]
      · have hu : u = [] := List.eq_nil_of_length_eq_zero (by omega)
        refine ⟨{ r with iCmdRecvdLen := 0, bFlushNextLine := false }, ?_, ?_⟩
        · rw [CmdBuffer.enter, hnext]
          dsimp only
          rw [if_neg hsome]
          rfl
        · subst hu
          refine .inside hremains hn ⟨hsize, Nat.zero_le _, ⟨_, rfl⟩, ?_, ?_⟩ ?_
          · intro _
            rw [hlast]
            rfl
          · intro hflush
            exact absurd hflush (by simp)
          · rw [huntold, List.append_nil, hfs]

/-- The loop over the characters, in a run. -/
theorem FramingInv.scan (h : FramingInv recvs r .inside fs) (hcuts : HarmlessCuts recvs) :
    ∃ parsed u s, Remains recvs parsed u ∧ r.scan = some s ∧ Scanned parsed u fs s := by
  cases h with
  | inside hremains hn hscan hfs =>
      obtain ⟨s, hs, hscanned⟩ := scanned_of_scanning hscan (hremains.harmless hcuts) hfs
      rw [← hn] at hs
      exact ⟨_, _, s, hremains, hs, hscanned⟩

theorem FramingInv.all (h : FramingInv recvs r .inside fs) (hcuts : HarmlessCuts recvs)
    (hall : r.scan = some (.all b k flush)) : Scanning recvs.flatten [] b k flush ∧
      fs ++ untold k flush = reference recvs.flatten := by
  obtain ⟨parsed, u, s, hremains, hs, hscanned⟩ := h.scan hcuts
  rw [hall, Option.some.injEq] at hs
  subst hs
  cases hscanned with
  | all hscan hfs =>
      rw [hremains.flatten]
      exact ⟨hscan, hfs⟩

theorem FramingInv.atLine {iCmdLen n : ℕ} (h : FramingInv recvs r .inside fs)
    (hcuts : HarmlessCuts recvs) (hline : r.scan = some (.line b iCmdLen n)) :
    ∃ text, stringAt NUL b 0 = some text ∧
      FramingInv recvs (r.atLine b iCmdLen n) .returned (fs ++ [.line text]) := by
  obtain ⟨parsed, u, s, hremains, hs, hscanned⟩ := h.scan hcuts
  rw [hline, Option.some.injEq] at hs
  subst hs
  cases hscanned with
  | @line x v line c b hu hat hlast hfs =>
      obtain ⟨j, hj⟩ := hat.cells
      have hstring : stringAt NUL b 0 = some line := by
        rw [hj]
        exact string_append hat.notMem _
      have hsplit : u = (x ++ [c]) ++ v := by rw [hu, List.append_assoc]; rfl
      rw [hsplit] at hremains
      exact ⟨line, hstring, .returned hremains.advance rfl rfl hat hlast hfs⟩

theorem FramingInv.process {b : Cells} (h : FramingInv recvs r .returned fs)
    (hprocessed : Processed r.sCmdBuffer b) : b.length = r.sCmdBuffer.length ∧
      (∀ q, r.psNextCmd = some q → b.drop q = r.sCmdBuffer.drop q) ∧
      FramingInv recvs { r with sCmdBuffer := b } .outside fs := by
  cases h with
  | @returned _ _ parsed u line hremains hn hnext hat hlast hfs =>
      obtain ⟨j, hj⟩ := hat.cells
      obtain ⟨w, hw, hb⟩ := hprocessed.behind hat.notMem hj
      have hlength : b.length = r.sCmdBuffer.length := by
        rw [hb, hj]
        simp only [List.length_append, List.length_cons, hw]
        omega
      have hdrop : b.drop (line.length + 1) = u ++ j := by
        rw [hb]
        exact List.drop_left' hw
      have hdrop' : r.sCmdBuffer.drop (line.length + 1) = u ++ j := by
        rw [hj, ← List.drop_drop, List.drop_left' rfl]
        rfl
      refine ⟨hlength, ?_, ?_⟩
      · intro q hq
        rw [hnext, Option.some.injEq] at hq
        rw [← hq, hdrop, hdrop']
      · exact .outside hremains hn hnext (Nat.succ_pos _) (hlength.trans hat.size) ⟨j, hdrop⟩
          hlast hfs

theorem Receives.inv (h : Receives recvs r phase fs) (hcuts : HarmlessCuts recvs) :
    FramingInv recvs r phase fs := by
  induction h with
  | opened hsize => exact .fresh hsize rfl
  | enter _ henter ih =>
      obtain ⟨r', hr', hinv⟩ := (ih hcuts).enter
      rw [henter, Option.some.injEq] at hr'
      rw [hr']
      exact hinv
  | @recv recvs r r' fs b k flush c _ hscan hne hroom hrecv ih =>
      obtain ⟨hscanning, hfs⟩ := (ih hcuts.before).all hcuts.before hscan
      obtain ⟨r'', hr'', hn, hnext, hfs'⟩ := hscanning.recv hfs hroom
      rw [hrecv, Option.some.injEq] at hr''
      subst hr''
      have hremains : Remains (recvs ++ [c]) recvs.flatten c := by
        have hpart : Remains (recvs ++ [[] ++ c]) (recvs.flatten ++ []) c := .part
        rw [List.append_nil] at hpart
        exact hpart
      exact .inside hremains hn hnext hfs'
  | line _ hscan hstring ih =>
      obtain ⟨text, htext, hinv⟩ := (ih hcuts).atLine hcuts hscan
      rw [hstring, Option.some.injEq] at htext
      rw [htext]
      exact hinv
  | process _ hprocessed ih => exact ((ih hcuts).process hprocessed).2.2

/-- A connection is framed as the reference says. -/
structure FramedRight (recvs : List Text) (r : CmdBuffer) (phase : Phase) (fs : List Framing) :
    Prop where
  /-- What was answered is what the reference answers first. -/
  answered : ∃ later, reference recvs.flatten = fs ++ later
  /-- When all that was received has been looked at, it has been answered. -/
  waiting : phase = .inside → ∀ b k flush, r.scan = some (.all b k flush) →
    fs ++ (r.scanned b k flush).tells = reference recvs.flatten
  /-- The accesses of `ReceiveLine` are within the buffer. -/
  enters : phase = .outside → ∃ r', r.enter = some r'
  scans : phase = .inside → ∃ s, r.scan = some s
  ends : phase = .inside → ∀ b iCmdLen n, r.scan = some (.line b iCmdLen n) →
    ∃ text, stringAt NUL b 0 = some text
  receives : phase = .inside → ∀ b k flush text, r.scan = some (.all b k flush) →
    text.length ≤ (r.scanned b k flush).makeRoom.iRemainingCmdLen →
    ∃ r', (r.scanned b k flush).makeRoom.recv text = some r'
  /-- So are those of the processing, and it leaves what is behind the line alone. -/
  processes : phase = .returned → Processes r.sCmdBuffer
  behind : phase = .returned → ∀ b, Processed r.sCmdBuffer b → b.length = r.sCmdBuffer.length ∧
    ∀ q, r.psNextCmd = some q → b.drop q = r.sCmdBuffer.drop q

/-- **The lines of a connection are those of the reference**, however the stream is divided, if no
line that was too long ends inside a result of `recv`, its length not a multiple of the size of the
buffer. -/
theorem framed_right (h : Receives recvs r phase fs) (hcuts : HarmlessCuts recvs) :
    FramedRight recvs r phase fs := by
  have hinv := h.inv hcuts
  constructor
  · cases hinv with
    | fresh _ _ => exact ⟨_, rfl⟩
    | inside hremains _ _ hfs =>
        obtain ⟨later, hlater⟩ := reference_append _ _
        rw [hremains.flatten]
        exact ⟨_, by rw [hlater, ← hfs, List.append_assoc]⟩
    | returned hremains _ _ _ _ hfs =>
        rw [hremains.flatten, hfs]
        exact reference_append _ _
    | outside hremains _ _ _ _ _ _ hfs =>
        rw [hremains.flatten, hfs]
        exact reference_append _ _
  · rintro rfl b k flush hall
    exact (hinv.all hcuts hall).2
  · rintro rfl
    obtain ⟨r', hr', -⟩ := hinv.enter
    exact ⟨r', hr'⟩
  · rintro rfl
    obtain ⟨_, _, s, _, hs, _⟩ := hinv.scan hcuts
    exact ⟨s, hs⟩
  · rintro rfl b iCmdLen n hline
    obtain ⟨text, htext, -⟩ := hinv.atLine hcuts hline
    exact ⟨text, htext⟩
  · rintro rfl b k flush text hall hroom
    obtain ⟨hscanning, hfs⟩ := hinv.all hcuts hall
    obtain ⟨r', hr', -⟩ := hscanning.recv hfs hroom
    exact ⟨r', hr'⟩
  · rintro rfl
    cases hinv with
    | returned _ _ _ hat _ _ => exact hat.processes
  · rintro rfl b hprocessed
    obtain ⟨hlength, hdrop, -⟩ := hinv.process hprocessed
    exact ⟨hlength, hdrop⟩

/-! ### Lines behind one that is too long -/

/-- The buffer of a new connection. -/
def newBuffer : Cells := List.replicate (MAX_COMMAND_LINE_LEN + 1) NUL

/-- The buffer with what `recv` gave first. -/
def firstRecv (text : Text) : CmdBuffer :=
  { sCmdBuffer := text ++ newBuffer.drop (0 + text.length)
    nRemainingCharToParse := 0 + text.length }

theorem receives_first {text : Text} (hne : text ≠ []) (hlen : text.length ≤ MAX_COMMAND_LINE_LEN) :
    Receives [text] (firstRecv text) .inside [] := by
  have hsize : newBuffer.length = MAX_COMMAND_LINE_LEN + 1 := List.length_replicate
  have hopen : Receives [] { sCmdBuffer := newBuffer } .outside [] := .opened hsize
  have hinside : Receives [] { sCmdBuffer := newBuffer } .inside [] := hopen.enter rfl
  have hle : 0 + text.length ≤ newBuffer.length := by omega
  have hrecv : CmdBuffer.recv { sCmdBuffer := newBuffer } text = some (firstRecv text) := by
    have hcopy : copy newBuffer 0 text = some (text ++ newBuffer.drop (0 + text.length)) :=
      if_pos hle
    rw [CmdBuffer.recv]
    show (copy newBuffer 0 text >>= _) = _
    rw [hcopy]
    rfl
  exact hinside.recv text rfl hne hlen hrecv

theorem cut_append (s t : Text) : cut (s ++ t) = t.foldl cutStep (cut s) := List.foldl_append

/-- Characters that are no ends of lines. -/
theorem cut_plain (h : ∀ c ∈ u, isLineEnd c = false) : cut u = ([], u) := by
  induction u using List.reverseRecOn with
  | nil => rfl
  | append_singleton u c ih =>
      rw [cut_append_char, ih fun d hd => h d (List.mem_append_left _ hd), cutStep,
        if_neg (by rw [h c (by simp)]; simp)]

theorem plain_of_all (h : u.all (fun c => !isLineEnd c) = true) : ∀ c ∈ u, isLineEnd c = false := by
  intro c hc
  have hnot := List.all_eq_true.mp h c hc
  rwa [Bool.not_eq_true'] at hnot

theorem scan_plain (flush : Bool) (x j : Cells) (h : ∀ c ∈ u, isLineEnd c = false) :
    scanChars u.length (x ++ (u ++ j)) x.length flush =
      some (.all (x ++ (u ++ j)) (x.length + u.length) flush) := by
  induction u generalizing x with
  | nil => rfl
  | cons c u ih =>
      have hnext := ih (x ++ [c]) fun d hd => h d (List.mem_cons_of_mem c hd)
      rw [List.length_append, List.length_singleton, List.append_assoc] at hnext
      rw [List.length_cons, scanChars, List.cons_append, read_append]
      show (if isLineEnd c = true then _ else _) = _
      rw [if_neg (by rw [h c (by simp)]; simp)]
      have hlen : x.length + (u.length + 1) = x.length + 1 + u.length := by omega
      rw [hlen]
      exact hnext

/-- The loop over the characters up to the end of a line. -/
theorem scan_line (x j : Cells) (n : ℕ) (hpos : 0 < x.length + u.length)
    (h : ∀ d ∈ u, isLineEnd d = false) (hc : isLineEnd c = true) :
    scanChars (u.length + (n + 1)) (x ++ (u ++ c :: j)) x.length false =
      some (.line (x ++ (u ++ NUL :: j)) (x.length + u.length) n) := by
  induction u generalizing x with
  | nil =>
      have hzero : ([] : Text).length + (n + 1) = n + 1 := Nat.zero_add _
      rw [hzero, scanChars, List.nil_append, read_append]
      show (if isLineEnd c = true then _ else _) = _
      rw [if_pos hc, if_pos ⟨hpos, rfl⟩, write_append]
      rfl
  | cons d u ih =>
      have hd : isLineEnd d = false := h d (by simp)
      have hnext := ih (x ++ [d]) (by simp) fun e he => h e (List.mem_cons_of_mem d he)
      have hlen : (d :: u).length + (n + 1) = u.length + (n + 1) + 1 := by
        rw [List.length_cons]
        omega
      have hsum : x.length + (d :: u).length = x.length + 1 + u.length := by
        rw [List.length_cons]
        omega
      rw [List.length_append, List.length_singleton, List.append_assoc, List.append_assoc] at hnext
      rw [hlen, scanChars, List.cons_append, read_append]
      show (if isLineEnd d = true then _ else _) = _
      rw [if_neg (by rw [hd]; simp), hsum]
      exact hnext

/-- The end of a line that comes first is dropped. -/
theorem scan_first (v j : Cells) (flush : Bool) (hc : isLineEnd c = true) :
    ∃ j', scanChars (v.length + 1) (c :: (v ++ j)) 0 flush =
      scanChars v.length (v ++ j') 0 false := by
  have hmove : move (c :: (v ++ j)) 0 (0 + 1) v.length =
      some (v ++ (([c] ++ v).drop v.length ++ j)) := move_append [] [c] v j
  refine ⟨([c] ++ v).drop v.length ++ j, ?_⟩
  rw [scanChars]
  show (if isLineEnd c = true then _ else _) = _
  rw [if_pos hc, if_neg (by simp), hmove]
  show scanChars v.length _ (if flush = true then 0 else 0) false = _
  rw [ite_self]

/-- As many characters as the buffer takes. -/
def longPart : Text := List.replicate MAX_COMMAND_LINE_LEN 'A'

/-- The buffer when a second result of `recv` has come, behind the long part. -/
def secondRecv (text : Text) : CmdBuffer :=
  { sCmdBuffer := text ++ (firstRecv longPart).sCmdBuffer.drop (0 + text.length)
    nRemainingCharToParse := 0 + text.length
    bFlushNextLine := true }

theorem plain_long : ∀ c ∈ longPart, isLineEnd c = false := by
  intro c hc
  rw [List.eq_of_mem_replicate hc]
  rfl

theorem length_long : longPart.length = MAX_COMMAND_LINE_LEN := List.length_replicate

theorem receives_second (text : Text) (htext : text ≠ [])
    (hroom : text.length ≤ MAX_COMMAND_LINE_LEN) :
    Receives [longPart, text] (secondRecv text) .inside [.tooLong] := by
  have hne : longPart ≠ [] := List.ne_nil_of_length_pos (by rw [length_long]; exact max_pos)
  have hfirst := receives_first hne (le_of_eq length_long)
  have hscan : (firstRecv longPart).scan =
      some (.all (firstRecv longPart).sCmdBuffer MAX_COMMAND_LINE_LEN false) := by
    have hplain := scan_plain false [] (newBuffer.drop (0 + longPart.length)) plain_long
    rw [List.length_nil, length_long, Nat.zero_add] at hplain
    rw [CmdBuffer.scan, firstRecv, length_long, Nat.zero_add]
    exact hplain
  have hmade : ((firstRecv longPart).scanned (firstRecv longPart).sCmdBuffer
      MAX_COMMAND_LINE_LEN false).makeRoom =
        (firstRecv longPart).scanned (firstRecv longPart).sCmdBuffer 0 true :=
    if_pos (le_refl _)
  have hsize : (firstRecv longPart).sCmdBuffer.length = MAX_COMMAND_LINE_LEN + 1 := by
    have hnew : newBuffer.length = MAX_COMMAND_LINE_LEN + 1 := List.length_replicate
    rw [firstRecv, List.length_append, List.length_drop, length_long, hnew]
    omega
  have hcopy : copy (firstRecv longPart).sCmdBuffer 0 text = some (text ++
      (firstRecv longPart).sCmdBuffer.drop (0 + text.length)) := by
    refine if_pos ?_
    omega
  have hrecv : ((firstRecv longPart).scanned (firstRecv longPart).sCmdBuffer 0 true).recv
      text = some (secondRecv text) := by
    show (copy (firstRecv longPart).sCmdBuffer 0 text >>= _) = _
    rw [hcopy]
    rfl
  have hsecond := hfirst.recv text hscan htext (by rw [hmade]; exact hroom)
    (by rw [hmade]; exact hrecv)
  have htells : ((firstRecv longPart).scanned (firstRecv longPart).sCmdBuffer
      MAX_COMMAND_LINE_LEN false).tells = [.tooLong] := if_pos ⟨le_refl _, rfl⟩
  rw [htells] at hsecond
  exact hsecond

/-- The end of the long line, as it comes first in the buffer, and two commands. -/
def behindFull : Text := "\nNOOP\r\nQUIT\r\n".toList

theorem lastPiece_behind (s t : Text) (hc : isLineEnd c = true) :
    (lastPiece (s ++ c :: t)).length ≤ t.length := by
  induction t using List.reverseRecOn with
  | nil =>
      rw [lastPiece_end hc]
  | append_singleton t d ih =>
      have hcells : s ++ c :: (t ++ [d]) = (s ++ c :: t) ++ [d] := by
        rw [List.append_assoc, List.cons_append]
      rw [hcells, List.length_append, List.length_singleton]
      cases hd : isLineEnd d with
      | true =>
          rw [lastPiece_end hd]
          exact Nat.zero_le _
      | false =>
          rw [lastPiece_char hd, List.length_append, List.length_singleton]
          omega

theorem lastPiece_long : lastPiece longPart = longPart := by
  rw [lastPiece, cut_plain plain_long]

/-- A line that fills the buffer ends before its next characters do harm. -/
theorem harmlessCuts_full : HarmlessCuts [longPart, behindFull] := by
  intro before done c rest after heq hc hlong
  cases before with
  | nil =>
      -- the long part has no end of a line
      have hfirst : longPart = done ++ c :: rest := (List.cons.inj heq).1
      have hmem : c ∈ longPart := by
        rw [hfirst]
        simp
      rw [plain_long c hmem] at hc
      exact absurd hc (by simp)
  | cons x before =>
      have hx : longPart = x := (List.cons.inj heq).1
      have hrest := (List.cons.inj heq).2
      cases before with
      | cons y before =>
          have hnil := (List.cons.inj hrest).2
          exact absurd hnil.symm (by simp)
      | nil =>
          have hbehind : behindFull = done ++ c :: rest := (List.cons.inj hrest).1
          subst hx
          cases done with
          | nil =>
              left
              simp only [List.flatten_cons, List.flatten_nil, List.append_nil]
              rw [lastPiece_long, length_long]
          | cons d done =>
              -- behind the end of the long line there are few characters
              have hd : d = '\n' := (List.cons.inj hbehind).1.symm
              have hfew : (d :: done).length ≤ behindFull.length := by
                rw [hbehind, List.length_append]
                exact Nat.le_add_right _ _
              have hshort := lastPiece_behind ([longPart] : List Text).flatten done
                (show isLineEnd d = true by rw [hd]; rfl)
              have hlength : behindFull.length = 13 := rfl
              have hmax : MAX_COMMAND_LINE_LEN = 4128 := rfl
              rw [List.length_cons] at hfew
              omega

/-- The long line is dropped, and `NOOP` is returned. -/
theorem receives_noop : ∃ j, Receives [longPart, behindFull]
    ((secondRecv behindFull).atLine ("NOOP".toList ++ NUL :: ("\nQUIT\r\n".toList ++ j)) 4 7)
    .returned [.tooLong, .line "NOOP".toList] := by
  have hsecond := receives_second behindFull (by decide) (by decide)
  obtain ⟨j, hfirst⟩ := scan_first (c := '\n') "NOOP\r\nQUIT\r\n".toList
    ((firstRecv longPart).sCmdBuffer.drop (0 + behindFull.length)) true rfl
  have hplain : ∀ d ∈ "NOOP".toList, isLineEnd d = false := plain_of_all (by decide)
  have hpos : 0 < "NOOP".toList.length := by decide
  have hline := scan_line (c := '\r') [] ("\nQUIT\r\n".toList ++ j) 7 (Nat.add_pos_right _ hpos)
    hplain rfl
  have hscan : (secondRecv behindFull).scan =
      some (.line ("NOOP".toList ++ NUL :: ("\nQUIT\r\n".toList ++ j)) 4 7) := hfirst.trans hline
  have hstring : stringAt NUL ("NOOP".toList ++ NUL :: ("\nQUIT\r\n".toList ++ j)) 0 =
      some "NOOP".toList := string_append (by decide) _
  exact ⟨j, hsecond.line hscan hstring⟩

/-- Then `QUIT` is returned. -/
theorem receives_quit : ∃ r, Receives [longPart, behindFull] r .returned
    [.tooLong, .line "NOOP".toList, .line "QUIT".toList] := by
  obtain ⟨j, hnoop⟩ := receives_noop
  have hinv := hnoop.inv harmlessCuts_full
  have hat : AtLine "NOOP".toList ("\nQUIT\r\n".toList ++ j) ("NOOP".toList ++ NUL ::
      ("\nQUIT\r\n".toList ++ j)) := by
    cases hinv with
    | returned _ _ _ hat' _ _ => exact ⟨hat'.size, by decide, by decide, [], by simp⟩
  obtain ⟨⟨b, arg⟩, hparse⟩ := hat.processes.parses
  have hprocessed : Processed ((secondRecv behindFull).atLine
      ("NOOP".toList ++ NUL :: ("\nQUIT\r\n".toList ++ j)) 4 7).sCmdBuffer b := .parsed hparse
  obtain ⟨-, hbehind, -⟩ := hinv.process hprocessed
  have hdrop : b.drop 5 = "\nQUIT\r\n".toList ++ j := hbehind 5 rfl
  have houtside := hnoop.process hprocessed
  have hmove : move b 0 5 7 = some ("\nQUIT\r\n".toList ++ b.drop 7) := by
    have hlen : 5 + 7 ≤ b.length := by
      have hlength := congrArg List.length hdrop
      rw [List.length_drop, List.length_append] at hlength
      have hseven : "\nQUIT\r\n".toList.length = 7 := rfl
      omega
    have hmoved : move b 0 5 7 = some (b.take 0 ++ (b.drop 5).take 7 ++ b.drop (0 + 7)) :=
      if_pos ⟨by omega, hlen⟩
    rw [hmoved, hdrop]
    rfl
  have henter : Receives [longPart, behindFull]
      { sCmdBuffer := "\nQUIT\r\n".toList ++ b.drop 7, nRemainingCharToParse := 7 }
      .inside [.tooLong, .line "NOOP".toList] := by
    apply houtside.enter
    show (move b 0 5 7 >>= _) = _
    rw [hmove]
    rfl
  obtain ⟨j', hfirst⟩ := scan_first (c := '\n') "QUIT\r\n".toList (b.drop 7) false rfl
  have hplain : ∀ d ∈ "QUIT".toList, isLineEnd d = false := plain_of_all (by decide)
  have hpos : 0 < "QUIT".toList.length := by decide
  have hline := scan_line (c := '\r') [] ("\n".toList ++ j') 1 (Nat.add_pos_right _ hpos) hplain rfl
  have hstring : stringAt NUL ("QUIT".toList ++ NUL :: ("\n".toList ++ j')) 0 =
      some "QUIT".toList := string_append (by decide) _
  exact ⟨_, henter.line (hfirst.trans hline) hstring⟩

/-- **A line that fills the buffer** is answered 500, and the two lines behind it are returned. -/
theorem framed_right_quit : ∃ r, FramedRight [longPart, behindFull] r .returned
    [.tooLong, .line "NOOP".toList, .line "QUIT".toList] := by
  obtain ⟨r, hquit⟩ := receives_quit
  exact ⟨r, framed_right hquit harmlessCuts_full⟩

/-- The end of the long line, and a command. -/
def behindLong : Text := "A\nNOOP\n".toList

/-- Behind the end of the long line the buffer is read from its beginning, where the last character
of that line still is, and the end of `NOOP` is not reached. -/
theorem scan_behindLong (j : Cells) :
    ∃ b, scanChars behindLong.length (behindLong ++ j) 0 true = some (.all b 5 false) := by
  have hmove : move (behindLong ++ j) 1 (1 + 1) 5 =
      some ("ANOOP".toList ++ '\n' :: ('\n' :: j)) := move_append ['A'] ['\n'] "NOOP\n".toList j
  have hplain : scanChars 5 ("ANOOP".toList ++ '\n' :: ('\n' :: j)) 0 false =
      some (.all ("ANOOP".toList ++ '\n' :: ('\n' :: j)) 5 false) := by
    have hnone : ∀ c ∈ "ANOOP".toList, isLineEnd c = false := plain_of_all (by decide)
    have hplain := scan_plain (u := "ANOOP".toList) false [] ('\n' :: ('\n' :: j)) hnone
    have hlength : "ANOOP".toList.length = 5 := rfl
    rw [List.nil_append, List.length_nil, Nat.zero_add, hlength] at hplain
    exact hplain
  refine ⟨"ANOOP".toList ++ '\n' :: ('\n' :: j), ?_⟩
  show (move (behindLong ++ j) 1 (1 + 1) 5 >>= fun b => scanChars 5 b 0 false) = _
  rw [hmove]
  exact hplain

theorem scan_second : ∃ b, (secondRecv behindLong).scan = some (.all b 5 false) := by
  rw [CmdBuffer.scan, secondRecv]
  show ∃ b, scanChars (0 + behindLong.length) _ 0 true = _
  rw [Nat.zero_add]
  exact scan_behindLong _

theorem reference_second :
    reference [longPart, behindLong].flatten = [.tooLong, .line "NOOP".toList] := by
  have hcells : [longPart, behindLong].flatten = (longPart ++ ['A']) ++ "\nNOOP\n".toList := by
    simp [behindLong]
  have hplain : ∀ c ∈ longPart ++ ['A'], isLineEnd c = false := by
    intro c hc
    rw [List.mem_append, List.mem_singleton] at hc
    obtain hc | rfl := hc
    · exact plain_long c hc
    · rfl
  have hcut : cut [longPart, behindLong].flatten =
      ([longPart ++ ['A'], "NOOP".toList], []) := by
    rw [hcells, cut_append, cut_plain hplain]
    rfl
  have hlong : framing (longPart ++ ['A']) = [.tooLong] := by
    rw [framing, if_neg (by simp), if_pos]
    rw [List.length_append, length_long]
    omega
  have hnone : ¬ MAX_COMMAND_LINE_LEN ≤ ([] : Text).length := Nat.not_le.mpr max_pos
  have hnoop : framing "NOOP".toList = [.line "NOOP".toList] := by decide
  rw [reference, hcut, List.flatMap_cons, List.flatMap_cons, List.flatMap_nil, hlong, hnoop,
    if_neg hnone]
  rfl

/-- **A command behind a line that is too long** is lost. -/
theorem line_lost :
    ¬ ∀ recvs r phase fs, Receives recvs r phase fs → FramedRight recvs r phase fs := by
  intro hall
  have hright := hall _ _ _ _ (receives_second behindLong (by decide) (by decide))
  obtain ⟨b, hscan⟩ := scan_second
  have hanswers := hright.waiting rfl b 5 false hscan
  have htells : ((secondRecv behindLong).scanned b 5 false).tells = [] := by
    refine if_neg fun hboth => ?_
    have hfull : MAX_COMMAND_LINE_LEN ≤ 5 := hboth.1
    exact absurd hfull (by decide)
  rw [htells, reference_second] at hanswers
  exact absurd hanswers (by decide)

end ClusterFtpd
