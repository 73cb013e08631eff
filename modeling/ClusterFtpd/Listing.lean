import ClusterFtpd.ListLine
import ClusterFtpd.Retrieve
import ClusterFtpd.Lib.CString
import ClusterFtpd.Lib.Blocks

/-!
# What `ListThread` sends

`listTransfer` leaves out what `ListThread` does with its arrays and its socket; `sendList` has all
of it: every text that is copied into an array of fixed size is noted with the size, and the lines
go through `AddToListBuffer` into `send`.

`Emits` is what a part of a listing does: it adds a text to what is sent and what waits in the
buffer, and reads names into `d_name`.  It composes, and `addToListBuffer_emits` is its one rule
about the buffer.  `run_sendList` is the specification of a listing: the lines of the entries that
`FindNext` finds, in their order.
-/

namespace ClusterFtpd

open Interaction MachineInt NameGraph PathComponents Blocks

/-! ### The operations -/

/-- A listing asks Redis and the clock, copies a text with its end into an array, and sends. -/
inductive ListOp where
  | redis (o : RedisOp)
  | time
  | copy (size : ℕ) (text : Text)
  | send (text : Text)

/-- The answer to each operation. -/
abbrev ListOp.Res : ListOp → Type
  | .redis o => o.Res
  | .time => ℤ
  | .copy _ _ => Unit
  | .send _ => ℤ

/-- The interface of a listing. -/
abbrev ListI : Interface := ⟨ListOp, ListOp.Res⟩

/-- Programs of a listing. -/
abbrev ListProg := Prog ListI

/-- A text that `strcpy` or `sprintf` writes into an array of `size` characters. -/
structure StrCopy where
  size : ℕ
  text : Text
  deriving DecidableEq

/-- There is room for the text and its terminator. -/
def StrCopy.InBounds (c : StrCopy) : Prop := c.text.length < c.size

/-- The database, the copies so far and what was given to `send`. -/
structure ListingState where
  db : Redis
  copies : List StrCopy := []
  sent : List Text := []

/-- The clock and the results of `send`. -/
structure ListEnv where
  time : ListingState → ℤ
  send : ListingState → Text → ℤ

/-- `send` transmits all it is given. -/
def ListEnv.Transmits (env : ListEnv) : Prop := ∀ s text, env.send s text = text.length

/-- The system's side of a listing. -/
def serveList (env : ListEnv) : Handler ListI ListingState
  | .redis o, s => ((serveRedis o s.db).1, { s with db := (serveRedis o s.db).2 })
  | .time, s => (env.time s, s)
  | .copy size text, s => ((), { s with copies := s.copies ++ [⟨size, text⟩] })
  | .send text, s => (env.send s text, { s with sent := s.sent ++ [text] })

/-- A program of Redis commands. -/
def listRedis {α : Type} (p : RedisProg α) : ListProg α :=
  translate (J := ListI) ListOp.redis (fun _ r => r) p

/-- `strcpy` and `sprintf`. -/
def copyText (size : ℕ) (text : Text) : ListProg Unit := Prog.op (I := ListI) (.copy size text)

/-- `send`. -/
def sendText (text : Text) : ListProg ℤ := Prog.op (I := ListI) (.send text)

/-! ### The program -/

/-- `CFTPSERVER_LIST_MAX_LINE_LEN`. -/
def LIST_MAX_LINE_LEN : ℕ := MAX_PATH + 57

/-- `GetFileListLine`. -/
def getFileListLine (mode : ℕ) (size mtime : ℤ) (pszName : Text) (opt_F : Bool) :
    ListProg Text := do
  let now ← Prog.op (I := ListI) .time
  copyText 6 (szYearOrHour now mtime)
  copyText LIST_MAX_LINE_LEN (listLine now mode size mtime pszName opt_F)
  return listLine now mode size mtime pszName opt_F

/-- The fields of `CEnumFileInfo` for the entry it stands on. -/
structure FileInfo where
  pszName : Text
  mode : ℕ
  size : ℤ
  mtime : ℤ

/-- The fields after `stat`, which are 0 where it fails; `mode` is an `unsigned short`. -/
def FileInfo.ofStat (pszName : Text) : Option Stat → FileInfo
  | some st => ⟨pszName, st.st_mode % 65536, st.st_size, st.st_mtime⟩
  | none => ⟨pszName, 0, 0, 0⟩

/-- The keys of a `map`, in the order of its iterators. -/
def sortedKeys {α : Type} [LinearOrder α] (keys : Finset α) : List α := keys.sort (· ≤ ·)

/-- `FindFirst` up to `opendir`: the names that `readdir` will return. -/
def openDir (pszPath : Text) : ListProg (List Text) := do
  copyText (MAX_PATH + 1) pszPath
  copyText (MAX_PATH + 1) (fullPath pszPath [])
  let fid ← listRedis (lookupFid (fullPath pszPath []))
  if fid < 0 then return []
  else
    let reply ← listRedis (Prog.op (I := RedisI) (.hgetallDirent (u32 fid)))
    return sortedKeys reply.keys

/-- The path of an entry would be too long for `szFullPath`. -/
def TooLong (szDirPath name : Text) : Prop := MAX_PATH ≤ szDirPath.length + name.length

instance (szDirPath name : Text) : Decidable (TooLong szDirPath name) :=
  inferInstanceAs (Decidable (_ ≤ _))

/-- `FindNext`, where `readdir` returns `name`. -/
def FileInfo.findNext (szDirPath name : Text) : ListProg (Option FileInfo) := do
  copyText 256 name
  if TooLong szDirPath name then return none
  else do
    copyText (MAX_PATH + 1) (fullPath szDirPath name)
    let st ← listRedis (stat (fullPath szDirPath name))
    return some (.ofStat name st)

/-- `pBuffer` and `nBufferPos`. -/
structure ListBuffer where
  pBuffer : List Char
  nBufferPos : ℕ

/-- `memcpy(b + p, text, strlen(text))`. -/
def memcpy (b : List Char) (p : ℕ) (text : Text) : ListProg (List Char) :=
  match CString.copy b p text with
  | some b => return b
  | none => .stop .undefinedBehaviour

/-- `AddToListBuffer` of a line.  `nBufferAvailable` is an `int`, and `memcpy` takes a negative one
for a length behind every array. -/
def addToListBuffer (uiBufferSize : ℕ) (pszListLine : Text) (b : ListBuffer) :
    ListProg (Bool × ListBuffer) :=
  let nLineLen : ℤ := pszListLine.length
  let nBufferAvailable := int32 (uiBufferSize - b.nBufferPos)
  let iCanCopyLen := if nLineLen ≤ nBufferAvailable then nLineLen else nBufferAvailable
  if iCanCopyLen < 0 then .stop .undefinedBehaviour
  else do
    let pBuffer ← memcpy b.pBuffer b.nBufferPos (pszListLine.take iCanCopyLen.toNat)
    let nBufferPos := b.nBufferPos + iCanCopyLen.toNat
    if nBufferPos = uiBufferSize then do
      let res ← sendText (pBuffer.take uiBufferSize)
      if res ≤ 0 then return (false, ⟨pBuffer, nBufferPos⟩)
      else if iCanCopyLen < nLineLen then do
        let pBuffer ← memcpy pBuffer 0 (pszListLine.drop iCanCopyLen.toNat)
        return (true, ⟨pBuffer, pszListLine.length - iCanCopyLen.toNat⟩)
      else return (true, ⟨pBuffer, 0⟩)
    else return (true, ⟨pBuffer, nBufferPos⟩)

/-- `AddToListBuffer` without a line: the buffer is flushed. -/
def flushListBuffer (b : ListBuffer) : ListProg Unit :=
  discard (sendText (b.pBuffer.take b.nBufferPos))

/-- The option `-a`, or a name that does not begin with a point. -/
def Visible (opt_a : Bool) (name : Text) : Prop := name.head? ≠ some '.' ∨ opt_a = true

instance (opt_a : Bool) (name : Text) : Decidable (Visible opt_a name) :=
  inferInstanceAs (Decidable (_ ∨ _))

/-- One turn of the loop of `ListThread`, without `FindNext`. -/
def listEntry (uiBufferSize : ℕ) (t : DataTransfer) (fi : FileInfo) (b : ListBuffer) :
    ListProg (Bool × ListBuffer) :=
  if Visible t.options.opt_a fi.pszName then
    if t.nCmd = some .nlst then addToListBuffer uiBufferSize fi.pszName b
    else do
      let psFileLine ← getFileListLine fi.mode fi.size fi.mtime fi.pszName t.options.opt_F
      addToListBuffer uiBufferSize psFileLine b
  else return (true, b)

/-- The loop of `ListThread`, with the names that `readdir` has still to return. -/
def listEntries (uiBufferSize : ℕ) (t : DataTransfer) :
    List Text → FileInfo → ListBuffer → ListProg ListBuffer
  | [], fi, b => do
      let r ← listEntry uiBufferSize t fi b
      return r.2
  | name :: vdp, fi, b => do
      let r ← listEntry uiBufferSize t fi b
      if r.1 then
        match ← FileInfo.findNext t.szPath name with
        | some fi => listEntries uiBufferSize t vdp fi r.2
        | none => return r.2
      else return r.2

/-- The name that `ListThread` prints for a path: what stands behind its last slash. -/
def lastName (szPath : Text) : Text :=
  if '/' ∈ szPath ∧ szPath.getLast? ≠ some '/' then (szPath.reverse.takeWhile (· ≠ '/')).reverse
  else ['.']

/-- The listing of a directory.  The cells of the new buffer have no values yet. -/
def sendDirectory (uiBufferSize : ℕ) (t : DataTransfer) : ListProg Unit := do
  let vdp ← openDir t.szPath
  match vdp with
  | [] => return ()
  | name :: vdp =>
      match ← FileInfo.findNext t.szPath name with
      | none => return ()
      | some fi => do
          let b ← listEntries uiBufferSize t vdp fi ⟨List.replicate uiBufferSize '\x00', 0⟩
          flushListBuffer b

/-- `ListThread`, up to the last reply. -/
def sendList (uiBufferSize : ℕ) (t : DataTransfer) : ListProg Unit :=
  let st := t.st.getD ⟨0, 0, 0, 0, 0⟩
  if t.options.opt_d = true ∨ ¬ S_ISDIR st.st_mode = true then do
    let psFileLine ← getFileListLine (st.st_mode % 65536) st.st_size st.st_mtime
      (lastName t.szPath) t.options.opt_F
    discard (sendText psFileLine)
  else sendDirectory uiBufferSize t

/-! ### Running a listing -/

variable {α β : Type} {env : ListEnv} {s s' s'' : ListingState} {n : ℕ}

theorem run_listRedis (p : RedisProg α) :
    run (serveList env) (listRedis p) s =
      (run serveRedis p s.db).mapState fun db => { s with db } :=
  run_translate (fun t : ListingState => t.db) (fun t db => { t with db }) (fun _ _ => rfl)
    (fun _ _ _ => rfl) (fun _ => rfl) (fun _ _ => ⟨rfl, rfl⟩) p s

theorem run_copyText_bind {size : ℕ} {text : Text} {f : Unit → ListProg α} :
    run (serveList env) (copyText size text >>= f) s =
      run (serveList env) (f ()) { s with copies := s.copies ++ [⟨size, text⟩] } := rfl

theorem run_sendText_bind {text : Text} {f : ℤ → ListProg α} :
    run (serveList env) (sendText text >>= f) s =
      run (serveList env) (f (env.send s text)) { s with sent := s.sent ++ [text] } := rfl

/-- A `stat` leaves numbers that an `int` holds. -/
theorem stat_int {db db' : Redis} {path : Text} {st : Stat}
    (h : run serveRedis (stat path) db = .done (some st) db') :
    (-2147483648 ≤ st.st_size ∧ st.st_size < 2147483648) ∧
      -2147483648 ≤ st.st_mtime ∧ st.st_mtime < 2147483648 := by
  obtain ⟨fid, -, hst⟩ := stat_done h
  have hbound : ∀ v, -2147483648 ≤ atoi v ∧ atoi v < 2147483648 := by
    intro v
    unfold atoi int32
    omega
  rw [hst]
  exact ⟨hbound _, hbound _⟩

/-! ### The buffer -/

/-- What waits in the buffer. -/
def ListBuffer.pending (b : ListBuffer) : Text := b.pBuffer.take b.nBufferPos

/-- A buffer of `n` cells that is not full. -/
structure ListBuffer.Ready (n : ℕ) (b : ListBuffer) : Prop where
  size : b.pBuffer.length = n
  pos : b.nBufferPos < n

/-- A part of a listing adds `x` to the stream and reads the names `read`: between the states `s` and
`s'` nothing else happens, and the copies stay in bounds except for those of the names. -/
structure Emits (n : ℕ) (read : List Text) (x : Text) (s s' : ListingState) (b b' : ListBuffer) :
    Prop where
  db : s'.db = s.db
  ready : b'.Ready n
  stream : s'.sent.flatten ++ b'.pending = s.sent.flatten ++ b.pending ++ x
  copies : ∃ cs, s'.copies = s.copies ++ cs ∧
    (∀ c ∈ cs, c.InBounds ∨ ∃ name ∈ read, c = ⟨256, name⟩) ∧ ∀ name ∈ read, ⟨256, name⟩ ∈ cs

variable {b b' b'' : ListBuffer} {read read' : List Text} {x y : Text}

/-- A part that copies nothing. -/
theorem Emits.of_sent (hready : b'.Ready n) (hdb : s'.db = s.db) (hcopies : s'.copies = s.copies)
    (hstream : s'.sent.flatten ++ b'.pending = s.sent.flatten ++ b.pending ++ x) :
    Emits n [] x s s' b b' := by
  refine ⟨hdb, hready, hstream, [], ?_, ?_, ?_⟩
  · rw [hcopies, List.append_nil]
  · intro c hc
    cases hc
  · intro name hname
    cases hname

theorem Emits.nothing (h : b.Ready n) : Emits n [] [] s s b b :=
  .of_sent h rfl rfl (List.append_nil _).symm

theorem Emits.trans (h : Emits n read x s s' b b') (h' : Emits n read' y s' s'' b' b'') :
    Emits n (read ++ read') (x ++ y) s s'' b b'' := by
  obtain ⟨cs, hcs, hin, hread⟩ := h.copies
  obtain ⟨cs', hcs', hin', hread'⟩ := h'.copies
  refine ⟨h'.db.trans h.db, h'.ready, ?_, cs ++ cs', ?_, ?_, ?_⟩
  · rw [h'.stream, h.stream, List.append_assoc]
  · rw [hcs', hcs, List.append_assoc]
  · intro c hc
    rcases List.mem_append.1 hc with hc | hc
    · rcases hin c hc with hbounds | ⟨name, hname, heq⟩
      · exact .inl hbounds
      · exact .inr ⟨name, List.mem_append_left _ hname, heq⟩
    · rcases hin' c hc with hbounds | ⟨name, hname, heq⟩
      · exact .inl hbounds
      · exact .inr ⟨name, List.mem_append_right _ hname, heq⟩
  · intro name hname
    rcases List.mem_append.1 hname with hname | hname
    · exact List.mem_append_left _ (hread name hname)
    · exact List.mem_append_right _ (hread' name hname)

theorem run_memcpy (env : ListEnv) (s : ListingState) {b : List Char} {p : ℕ} {text : Text}
    (h : p + text.length ≤ b.length) :
    ∃ b', run (serveList env) (memcpy b p text) s = .done b' s ∧ b'.length = b.length ∧
      b'.take (p + text.length) = b.take p ++ text := by
  obtain ⟨b', hcopy, hlength, htake⟩ := CString.exists_copy h
  refine ⟨b', ?_, hlength, htake⟩
  rw [memcpy, hcopy]
  rfl

theorem ListBuffer.Ready.pending_length (h : b.Ready n) : b.pending.length = b.nBufferPos := by
  have hpos := h.pos
  rw [ListBuffer.pending, List.length_take, h.size]
  omega

/-- **One call of `AddToListBuffer`**: it goes on writing in blocks of `n` characters, one at most. -/
theorem run_addToListBuffer (s : ListingState) {line : Text} (hsend : env.Transmits)
    (hb : b.Ready n) (hn : n < 2147483648) (hline : line.length ≤ n) :
    ∃ blocks b', run (serveList env) (addToListBuffer n line b) s =
        .done (true, b') { s with sent := s.sent ++ blocks } ∧
      b'.Ready n ∧ Written n blocks b'.pending (b.pending ++ line) := by
  have hpos := hb.pos
  have hsize := hb.size
  have hpending := hb.pending_length
  have havailable : int32 (n - b.nBufferPos) = ((n - b.nBufferPos : ℕ) : ℤ) := by
    rw [int32_of_range (by omega) (by omega)]
    omega
  -- What `send` is given when the buffer is full has `n` characters.
  have hfull : ∀ buffer : List Char, buffer.length = n →
      ¬ env.send s (buffer.take n) ≤ 0 := by
    intro buffer hbuffer
    rw [hsend, List.length_take, hbuffer]
    omega
  unfold addToListBuffer
  simp only [havailable]
  by_cases hfits : line.length ≤ n - b.nBufferPos
  · have hlen : ((line.length : ℤ) ≤ ((n - b.nBufferPos : ℕ) : ℤ)) := by omega
    have hroom : b.nBufferPos + line.length ≤ b.pBuffer.length := by omega
    obtain ⟨buffer, hrun, hbuffer, htake⟩ := run_memcpy env s hroom
    have hcells : buffer.length = n := hbuffer.trans hsize
    rw [if_pos hlen, if_neg (by omega), Int.toNat_natCast, List.take_length, run_bind, hrun,
      Outcome.done_andThen]
    by_cases hend : b.nBufferPos + line.length = n
    · -- The line fills the buffer, which is sent.
      have hblock : (b.pending ++ line).length = n := by
        rw [List.length_append, hpending]
        exact hend
      have hsent : buffer.take n = b.pending ++ line := by
        rw [← hend]
        exact htake
      have hwritten : Written n [b.pending ++ line] [] (b.pending ++ line ++ []) :=
        .one hblock (Nat.zero_lt_of_lt hpos)
      rw [List.append_nil] at hwritten
      rw [if_pos hend, run_sendText_bind, if_neg (hfull buffer hcells), if_neg (lt_irrefl _), hsent]
      exact ⟨_, ⟨buffer, 0⟩, rfl, ⟨hcells, Nat.zero_lt_of_lt hpos⟩, hwritten⟩
    · -- The line fits, and the buffer is not full.
      have hbelow : b.nBufferPos + line.length < n := by omega
      have hpending' : (⟨buffer, b.nBufferPos + line.length⟩ : ListBuffer).pending =
          b.pending ++ line := htake
      have hwritten : Written n [] (b.pending ++ line) (b.pending ++ line) := by
        apply Written.waiting
        rw [List.length_append, hpending]
        exact hbelow
      rw [if_neg hend]
      refine ⟨[], ⟨buffer, b.nBufferPos + line.length⟩, ?_, ⟨hcells, hbelow⟩, ?_⟩
      · rw [List.append_nil]
        rfl
      · rw [hpending']
        exact hwritten
  · -- The line straddles the end of the buffer.
    have hlen : ¬ ((line.length : ℤ) ≤ ((n - b.nBufferPos : ℕ) : ℤ)) := by omega
    have htaken : (line.take (n - b.nBufferPos)).length = n - b.nBufferPos := by
      rw [List.length_take]
      omega
    have hroom : b.nBufferPos + (line.take (n - b.nBufferPos)).length ≤ b.pBuffer.length := by
      omega
    obtain ⟨buffer, hrun, hbuffer, htake⟩ := run_memcpy env s hroom
    have hcells : buffer.length = n := hbuffer.trans hsize
    have hend : b.nBufferPos + (n - b.nBufferPos) = n := by omega
    have hrest : 0 + (line.drop (n - b.nBufferPos)).length ≤ buffer.length := by
      rw [List.length_drop]
      omega
    rw [if_neg hlen, if_neg (by omega), Int.toNat_natCast, run_bind, hrun, Outcome.done_andThen,
      if_pos hend, run_sendText_bind, if_neg (hfull buffer hcells), if_pos (by omega)]
    obtain ⟨after, hrun', hafter, htake'⟩ := run_memcpy env
      { s with sent := s.sent ++ [buffer.take n] } hrest
    rw [run_bind, hrun', Outcome.done_andThen]
    have hbelow : line.length - (n - b.nBufferPos) < n := by omega
    have hpending' : (⟨after, line.length - (n - b.nBufferPos)⟩ : ListBuffer).pending =
        line.drop (n - b.nBufferPos) := by
      rw [List.length_drop, Nat.zero_add, List.take_zero, List.nil_append] at htake'
      exact htake'
    have hsent : buffer.take n = b.pending ++ line.take (n - b.nBufferPos) := by
      rw [htaken, hend] at htake
      exact htake
    have hblock : (buffer.take n).length = n := by
      rw [List.length_take, hcells, Nat.min_self]
    have hshort : (line.drop (n - b.nBufferPos)).length < n := by
      rw [List.length_drop]
      exact hbelow
    have hwritten := Written.one hblock hshort
    rw [hsent, List.append_assoc, List.take_append_drop, ← hsent, ← hpending'] at hwritten
    exact ⟨_, _, rfl, ⟨hafter.trans hcells, hbelow⟩, hwritten⟩

/-- **Adding a line to the buffer**: it is sent or waits, behind what was there. -/
theorem addToListBuffer_emits (s : ListingState) {line : Text} (hsend : env.Transmits)
    (hb : b.Ready n) (hn : n < 2147483648) (hline : line.length ≤ n) :
    ∃ b' s', run (serveList env) (addToListBuffer n line b) s = .done (true, b') s' ∧
      Emits n [] line s s' b b' := by
  obtain ⟨blocks, b', hrun, hready, hwritten⟩ := run_addToListBuffer s hsend hb hn hline
  refine ⟨b', _, hrun, .of_sent hready rfl rfl ?_⟩
  show (s.sent ++ blocks).flatten ++ b'.pending = _
  rw [List.flatten_append, List.append_assoc, hwritten.all, ← List.append_assoc]

/-! ### The entries -/

/-- What `stat` finds for an entry. -/
def entryStat (db : Redis) (szDirPath name : Text) : Option Stat :=
  (ask (stat (fullPath szDirPath name)) db).join

/-- The fields of `CEnumFileInfo` for an entry. -/
def entryInfo (db : Redis) (szDirPath name : Text) : FileInfo :=
  .ofStat name (entryStat db szDirPath name)

/-- The line that `LIST` prints for the fields at the time `now`. -/
def FileInfo.line (fi : FileInfo) (now : ℤ) (opt_F : Bool) : Text :=
  listLine now fi.mode fi.size fi.mtime fi.pszName opt_F

/-- What `NLST` or `LIST` sends for an entry. -/
def PrintedFor (db : Redis) (t : DataTransfer) (name x : Text) : Prop :=
  if t.nCmd = some .nlst then x = name
  else ∃ now, x = (entryInfo db t.szPath name).line now t.options.opt_F

/-- The names that `readdir` copies: up to the first that is too long. -/
def readNames (szDirPath : Text) : List Text → List Text
  | [] => []
  | name :: vdp => name :: if TooLong szDirPath name then [] else readNames szDirPath vdp

/-- The names that `FindNext` finds. -/
def foundNames (szDirPath : Text) (vdp : List Text) : List Text :=
  vdp.takeWhile fun name => ¬ TooLong szDirPath name

variable {t : DataTransfer} {name szDirPath : Text} {names vdp : List Text} {db : Redis}

theorem foundNames_long (h : TooLong szDirPath name) (vdp : List Text) :
    foundNames szDirPath (name :: vdp) = [] :=
  List.takeWhile_cons_of_neg fun hshort => of_decide_eq_true hshort h

theorem foundNames_short (h : ¬ TooLong szDirPath name) (vdp : List Text) :
    foundNames szDirPath (name :: vdp) = name :: foundNames szDirPath vdp :=
  List.takeWhile_cons_of_pos (decide_eq_true h)

/-- `stat` of the entry gets its answers. -/
def StatEnds (db : Redis) (szDirPath name : Text) : Prop :=
  ∃ st, run serveRedis (stat (fullPath szDirPath name)) db = .done st db

theorem entryInfo_pszName : (entryInfo db szDirPath name).pszName = name := by
  unfold entryInfo
  cases entryStat db szDirPath name <;> rfl

theorem entryInfo_int (db : Redis) (szDirPath name : Text) :
    (-2147483648 ≤ (entryInfo db szDirPath name).size ∧
      (entryInfo db szDirPath name).size < 2147483648) ∧
    -2147483648 ≤ (entryInfo db szDirPath name).mtime ∧
      (entryInfo db szDirPath name).mtime < 2147483648 := by
  have hzero : ((-2147483648 : ℤ) ≤ 0 ∧ (0 : ℤ) < 2147483648) ∧
      (-2147483648 : ℤ) ≤ 0 ∧ (0 : ℤ) < 2147483648 := by decide
  unfold entryInfo entryStat ask
  cases hrun : run serveRedis (stat (fullPath szDirPath name)) db with
  | stopped why db' => exact hzero
  | done st db' =>
      cases st with
      | none => exact hzero
      | some st => exact stat_int hrun

theorem length_listLine_le (now : ℤ) (mode : ℕ) {size mtime : ℤ} (pszName : Text) (opt_F : Bool)
    (hsize : -2147483648 ≤ size ∧ size < 2147483648)
    (hmtime : -2147483648 ≤ mtime ∧ mtime < 2147483648) :
    (listLine now mode size mtime pszName opt_F).length ≤ pszName.length + 55 := by
  have hslash : (slashOf opt_F (S_ISDIR mode)).length ≤ 1 := by
    unfold slashOf
    split
    · exact Nat.le_refl 1
    · exact Nat.zero_le 1
  have hcrlf : crlf.length = 2 := rfl
  have hprefix := length_listPrefix now mode hsize.1 hsize.2 hmtime.1 hmtime.2
  rw [listLine, List.length_append, List.length_append, List.length_append, hprefix, hcrlf]
  omega

theorem length_fullPath_le (szDirPath name : Text) :
    (fullPath szDirPath name).length ≤ szDirPath.length + name.length + 1 := by
  unfold fullPath
  split <;> simp only [List.length_append, List.length_nil, List.length_singleton] <;> omega

/-- `GetFileListLine` stays in its arrays, for a name that `FindNext` lets through. -/
theorem getFileListLine_emits (env : ListEnv) (s : ListingState) (hb : b.Ready n) (mode : ℕ)
    {size mtime : ℤ} {pszName : Text} (opt_F : Bool) (hsize : -2147483648 ≤ size ∧ size < 2147483648)
    (hmtime : -2147483648 ≤ mtime ∧ mtime < 2147483648) (hname : pszName.length ≤ MAX_PATH) :
    ∃ now s', run (serveList env) (getFileListLine mode size mtime pszName opt_F) s =
        .done (listLine now mode size mtime pszName opt_F) s' ∧ Emits n [] [] s s' b b := by
  refine ⟨env.time s, _, rfl, rfl, hb, (List.append_nil _).symm, _, List.append_assoc _ _ _, ?_, ?_⟩
  · intro c hc
    rcases List.mem_append.1 hc with hc | hc
    · have hyear : (szYearOrHour (env.time s) mtime).length = 5 :=
        length_szYearOrHour (gmtime_proper hmtime.1 hmtime.2)
      rw [List.mem_singleton.1 hc]
      refine .inl ?_
      show (szYearOrHour (env.time s) mtime).length < 6
      omega
    · have hline := length_listLine_le (env.time s) mode pszName opt_F hsize hmtime
      rw [List.mem_singleton.1 hc]
      refine .inl ?_
      show (listLine (env.time s) mode size mtime pszName opt_F).length < MAX_PATH + 57
      omega
  · intro name hname
    cases hname

/-- `FindNext` reads one name and finds its entry, unless the path would be too long. -/
theorem findNext_emits (env : ListEnv) (hb : b.Ready n) (hstat : StatEnds s.db szDirPath name) :
    ∃ s', run (serveList env) (FileInfo.findNext szDirPath name) s =
        .done (if TooLong szDirPath name then none else some (entryInfo s.db szDirPath name)) s' ∧
      Emits n [name] [] s s' b b := by
  have hcopy : ∀ cs : List StrCopy, (∀ c ∈ cs, c.InBounds) →
      Emits n [name] [] s { s with copies := s.copies ++ (⟨256, name⟩ :: cs) } b b := by
    intro cs hcs
    refine ⟨rfl, hb, (List.append_nil _).symm, _, rfl, ?_, ?_⟩
    · intro c hc
      rcases List.mem_cons.1 hc with hc | hc
      · exact .inr ⟨name, List.mem_cons_self, hc⟩
      · exact .inl (hcs c hc)
    · intro m hm
      rw [List.mem_singleton.1 hm]
      exact List.mem_cons_self
  unfold FileInfo.findNext
  rw [run_copyText_bind]
  by_cases hlong : TooLong szDirPath name
  · rw [if_pos hlong, if_pos hlong]
    exact ⟨_, rfl, hcopy [] fun c hc => nomatch hc⟩
  · obtain ⟨st, hrun⟩ := hstat
    have hinfo : entryInfo s.db szDirPath name = .ofStat name st := by
      unfold entryInfo entryStat ask
      rw [hrun]
      rfl
    rw [if_neg hlong, if_neg hlong, run_copyText_bind, run_bind, run_listRedis, hrun, hinfo]
    refine ⟨_, rfl, ?_⟩
    have hfull : (fullPath szDirPath name).length < MAX_PATH + 1 := by
      have hle := length_fullPath_le szDirPath name
      have hlt : ¬ MAX_PATH ≤ szDirPath.length + name.length := hlong
      omega
    show Emits n [name] [] s
      { s with copies := s.copies ++ [⟨256, name⟩] ++ [⟨MAX_PATH + 1, _⟩] } b b
    rw [List.append_assoc]
    refine hcopy [⟨MAX_PATH + 1, _⟩] fun c hc => ?_
    rw [List.mem_singleton.1 hc]
    exact hfull

theorem length_le_of_short (h : ¬ TooLong szDirPath name) : name.length ≤ MAX_PATH := by
  have hlt : ¬ MAX_PATH ≤ szDirPath.length + name.length := h
  omega

/-- `addToListBuffer_emits` for the line that `GetFileListLine` prints. -/
theorem addLine_emits (hsend : env.Transmits) (hb : b.Ready n) (hmin : MAX_PATH + 57 ≤ n)
    (hn : n < 2147483648) {fi : FileInfo} (opt_F : Bool)
    (hsize : -2147483648 ≤ fi.size ∧ fi.size < 2147483648)
    (hmtime : -2147483648 ≤ fi.mtime ∧ fi.mtime < 2147483648)
    (hname : fi.pszName.length ≤ MAX_PATH) :
    ∃ now b' s', run (serveList env) (getFileListLine fi.mode fi.size fi.mtime fi.pszName opt_F >>=
        fun psFileLine => addToListBuffer n psFileLine b) s = .done (true, b') s' ∧
      Emits n [] (fi.line now opt_F) s s' b b' := by
  obtain ⟨now, s₁, hline, hprinted⟩ :=
    getFileListLine_emits env s hb fi.mode opt_F hsize hmtime hname
  have hlength := length_listLine_le now fi.mode fi.pszName opt_F hsize hmtime
  have hfits : (listLine now fi.mode fi.size fi.mtime fi.pszName opt_F).length ≤ n := by omega
  obtain ⟨b', s', hrun, hemits⟩ := addToListBuffer_emits s₁ hsend hprinted.ready hn hfits
  refine ⟨now, b', s', ?_, hprinted.trans hemits⟩
  rw [run_bind, hline, Outcome.done_andThen]
  exact hrun

/-- One turn of the loop sends what is printed for the entry, if it is shown. -/
theorem listEntry_emits (hsend : env.Transmits) (hb : b.Ready n) (hmin : MAX_PATH + 57 ≤ n)
    (hn : Visible t.options.opt_a name → n < 2147483648) (hname : name.length ≤ MAX_PATH) :
    ∃ b' s' ls, run (serveList env) (listEntry n t (entryInfo s.db t.szPath name) b) s =
        .done (true, b') s' ∧ Emits n [] ls.flatten s s' b b' ∧
      List.Forall₂ (PrintedFor s.db t) ([name].filter fun m => Visible t.options.opt_a m) ls := by
  have hint := entryInfo_int s.db t.szPath name
  have hpsz : (entryInfo s.db t.szPath name).pszName = name := entryInfo_pszName
  unfold listEntry
  by_cases hvisible : Visible t.options.opt_a name
  · have hfilter : ([name].filter fun m => Visible t.options.opt_a m) = [name] :=
      List.filter_cons_of_pos (decide_eq_true hvisible)
    rw [hpsz, if_pos hvisible, hfilter]
    by_cases hnlst : t.nCmd = some .nlst
    · rw [if_pos hnlst]
      have hfits : name.length ≤ n := by omega
      obtain ⟨b', s', hrun, hemits⟩ := addToListBuffer_emits s hsend hb (hn hvisible) hfits
      refine ⟨b', s', [name], hrun, ?_, .cons ?_ .nil⟩
      · rwa [List.flatten_singleton]
      · exact (if_pos hnlst).mpr rfl
    · rw [if_neg hnlst]
      have hlength : (entryInfo s.db t.szPath name).pszName.length ≤ MAX_PATH := by
        rw [hpsz]
        exact hname
      obtain ⟨now, b', s', hrun, hemits⟩ :=
        addLine_emits (s := s) hsend hb hmin (hn hvisible) t.options.opt_F hint.1 hint.2 hlength
      rw [hpsz] at hrun
      refine ⟨b', s', [(entryInfo s.db t.szPath name).line now t.options.opt_F], hrun, ?_,
        .cons ?_ .nil⟩
      · rw [List.flatten_singleton]
        exact hemits
      · exact (if_neg hnlst).mpr ⟨now, rfl⟩
  · have hfilter : ([name].filter fun m => Visible t.options.opt_a m) = [] :=
      List.filter_cons_of_neg fun h => hvisible (of_decide_eq_true h)
    rw [hpsz, if_neg hvisible, hfilter]
    exact ⟨b, s, [], rfl, .nothing hb, .nil⟩

/-- **The loop of `ListThread`**: what is printed for the entry it stands on and for those that
`FindNext` finds. -/
theorem listEntries_emits (hsend : env.Transmits) (hmin : MAX_PATH + 57 ≤ n)
    (hn : ∀ m ∈ name :: foundNames t.szPath vdp, Visible t.options.opt_a m → n < 2147483648)
    (hstats : ∀ m ∈ vdp, StatEnds s.db t.szPath m) (hb : b.Ready n)
    (hname : ¬ TooLong t.szPath name) :
    ∃ b' s' ls, run (serveList env) (listEntries n t vdp (entryInfo s.db t.szPath name) b) s =
        .done b' s' ∧ Emits n (readNames t.szPath vdp) ls.flatten s s' b b' ∧
      List.Forall₂ (PrintedFor s.db t)
        ((name :: foundNames t.szPath vdp).filter fun m => Visible t.options.opt_a m) ls := by
  induction vdp generalizing name s b with
  | nil =>
      obtain ⟨b', s', ls, hrun, hemits, hprinted⟩ :=
        listEntry_emits (s := s) hsend hb hmin (hn name List.mem_cons_self)
          (length_le_of_short hname)
      refine ⟨b', s', ls, ?_, hemits, hprinted⟩
      rw [listEntries, run_bind, hrun]
      rfl
  | cons next vdp ih =>
      obtain ⟨b₁, s₁, ls₁, hrun₁, hemits₁, hprinted₁⟩ :=
        listEntry_emits (s := s) hsend hb hmin (hn name List.mem_cons_self)
          (length_le_of_short hname)
      have hstat : StatEnds s₁.db t.szPath next := by
        rw [hemits₁.db]
        exact hstats next List.mem_cons_self
      obtain ⟨s₂, hrun₂, hemits₂⟩ := findNext_emits env hemits₁.ready hstat
      have hread := hemits₁.trans hemits₂
      rw [List.append_nil] at hread
      rw [listEntries, run_bind, hrun₁, Outcome.done_andThen, if_pos rfl, run_bind, hrun₂,
        Outcome.done_andThen]
      by_cases hlong : TooLong t.szPath next
      · rw [if_pos hlong, readNames, if_pos hlong, foundNames_long hlong]
        exact ⟨b₁, s₂, ls₁, rfl, hread, hprinted₁⟩
      · have hdb : s₂.db = s.db := hread.db
        have hstats' : ∀ m ∈ vdp, StatEnds s₂.db t.szPath m := by
          rw [hdb]
          exact fun m hm => hstats m (List.mem_cons_of_mem next hm)
        rw [foundNames_short hlong] at hn
        obtain ⟨b', s', ls, hrun, hemits, hprinted⟩ :=
          ih (fun m hm => hn m (List.mem_cons_of_mem name hm)) hstats' hread.ready hlong
        rw [if_neg hlong, readNames, if_neg hlong, foundNames_short hlong, hemits₁.db, ← hdb]
        refine ⟨b', s', ls₁ ++ ls, hrun, ?_, ?_⟩
        · rw [List.flatten_append]
          exact hread.trans hemits
        · rw [← List.singleton_append, List.filter_append]
          rw [hdb] at hprinted ⊢
          exact List.rel_append hprinted₁ hprinted

/-! ### Directories -/

/-- `FindFirst` opens the directory, its entries have the names `names`, and `stat` of each of them
gets its answers. -/
structure DirAt (db : Redis) (szDirPath : Text) (names : List Text) : Prop where
  opens : ∃ k : ℕ, run serveRedis (lookupFid (fullPath szDirPath [])) db = .done (k : ℤ) db ∧
    names = (db.dirent (u32 k)).keys.sort (· ≤ ·)
  stats : ∀ name ∈ names, StatEnds db szDirPath name

/-- The copies of `FindFirst`. -/
def openCopies (szDirPath : Text) : List StrCopy :=
  [⟨MAX_PATH + 1, szDirPath⟩, ⟨MAX_PATH + 1, fullPath szDirPath []⟩]

theorem run_openDir (h : DirAt s.db szDirPath names) :
    run (serveList env) (openDir szDirPath) s =
      .done names { s with copies := s.copies ++ openCopies szDirPath } := by
  obtain ⟨k, hrun, hnames⟩ := h.opens
  have hk : ¬ (k : ℤ) < 0 := by omega
  unfold openDir
  rw [run_copyText_bind, run_copyText_bind, run_bind, run_listRedis, hrun]
  show run _ (if (k : ℤ) < 0 then _ else _) _ = _
  rw [if_neg hk, run_bind, run_listRedis]
  show Outcome.done ((s.db.dirent (u32 k)).keys.sort (· ≤ ·)) _ = _
  rw [← hnames, List.append_assoc]
  rfl

/-- The listing of a directory: what is sent and what is copied. -/
structure DirSent (t : DataTransfer) (names : List Text) (s s' : ListingState) : Prop where
  db : s'.db = s.db
  sent : ∃ ls, s'.sent.flatten = s.sent.flatten ++ ls.flatten ∧
    List.Forall₂ (PrintedFor s.db t)
      ((foundNames t.szPath names).filter fun m => Visible t.options.opt_a m) ls
  copies : ∃ cs, s'.copies = s.copies ++ openCopies t.szPath ++ cs ∧
    (∀ c ∈ cs, c.InBounds ∨ ∃ name ∈ readNames t.szPath names, c = ⟨256, name⟩) ∧
    ∀ name ∈ readNames t.szPath names, ⟨256, name⟩ ∈ cs

/-- **The listing of a directory** sends what is printed for the entries that `FindNext` finds. -/
theorem run_sendDirectory (hsend : env.Transmits) (hmin : MAX_PATH + 57 ≤ n)
    (hn : ∀ m ∈ foundNames t.szPath names, Visible t.options.opt_a m → n < 2147483648)
    (h : DirAt s.db t.szPath names) :
    ∃ s', run (serveList env) (sendDirectory n t) s = .done () s' ∧ DirSent t names s s' := by
  unfold sendDirectory
  rw [run_bind, run_openDir h, Outcome.done_andThen]
  cases names with
  | nil =>
      refine ⟨_, rfl, rfl, ⟨[], (List.append_nil _).symm, .nil⟩, [], (List.append_nil _).symm,
        ?_, ?_⟩
      · intro c hc
        cases hc
      · intro name hname
        cases hname
  | cons name vdp =>
      have hpos : 0 < n := by omega
      have hready : (⟨List.replicate n '\x00', 0⟩ : ListBuffer).Ready n :=
        ⟨List.length_replicate, hpos⟩
      obtain ⟨s₂, hrun₂, hemits₂⟩ := findNext_emits env
        (s := { s with copies := s.copies ++ openCopies t.szPath }) hready
        (h.stats name List.mem_cons_self)
      dsimp only
      rw [run_bind, hrun₂, Outcome.done_andThen]
      by_cases hlong : TooLong t.szPath name
      · have hstream := hemits₂.stream
        simp only [ListBuffer.pending, List.take_zero, List.append_nil] at hstream
        rw [if_pos hlong]
        refine ⟨s₂, rfl, hemits₂.db, ⟨[], ?_, ?_⟩, ?_⟩
        · rw [hstream]
          exact (List.append_nil _).symm
        · rw [foundNames_long hlong]
          exact .nil
        · rw [readNames, if_pos hlong]
          exact hemits₂.copies
      · have hdb : s₂.db = s.db := hemits₂.db
        have hstats : ∀ m ∈ vdp, StatEnds s₂.db t.szPath m := by
          rw [hdb]
          exact fun m hm => h.stats m (List.mem_cons_of_mem name hm)
        rw [foundNames_short hlong] at hn
        obtain ⟨b', s', ls, hrun, hemits, hprinted⟩ :=
          listEntries_emits hsend hmin hn hstats hemits₂.ready hlong
        have hall := hemits₂.trans hemits
        have hstream := hall.stream
        rw [hdb] at hrun hprinted
        simp only [ListBuffer.pending, List.take_zero, List.append_nil, List.nil_append] at hstream
        rw [if_neg hlong]
        dsimp only
        rw [run_bind, hrun, Outcome.done_andThen]
        refine ⟨_, rfl, hall.db, ⟨ls, ?_, ?_⟩, ?_⟩
        · show (s'.sent ++ [b'.pBuffer.take b'.nBufferPos]).flatten = _
          rw [List.flatten_append, List.flatten_singleton]
          exact hstream
        · rw [foundNames_short hlong]
          exact hprinted
        · rw [readNames, if_neg hlong]
          exact hall.copies

/-! ### The directories of a file system -/

theorem lookupResult_append {fid : ℤ} {xs : List Text} {k : ℕ}
    (h : lookupResult db fid xs = some (k : ℤ)) (ys : List Text) :
    lookupResult db fid (xs ++ ys) = lookupResult db k ys := by
  induction xs generalizing fid with
  | nil =>
      have hk : fid = k := Option.some.inj h
      rw [hk, List.nil_append]
  | cons x xs ih =>
      rw [lookupResult] at h
      rw [List.cons_append, lookupResult]
      split_ifs at h ⊢
      cases hx : (db.dirent (u32 fid)).lookup x with
      | none =>
          rw [hx] at h
          have hneg : (-1 : ℤ) = k := Option.some.inj h
          omega
      | some v =>
          rw [hx] at h
          exact ih h

/-- A `stat` ends where the lookup ends. -/
theorem statEnds_of_lookup (fid : ℤ)
    (h : run serveRedis (lookupFid (fullPath szDirPath name)) db = .done fid db) :
    StatEnds db szDirPath name := by
  unfold StatEnds stat
  rw [run_bind, h, Outcome.done_andThen]
  by_cases hneg : fid < 0
  · rw [if_pos hneg]
    exact ⟨_, rfl⟩
  · rw [if_neg hneg]
    show ∃ st, run serveRedis (if db.stat (u32 fid) = .absent then _ else _) db = .done st db
    by_cases habsent : db.stat (u32 fid) = .absent
    · rw [if_pos habsent]
      exact ⟨_, rfl⟩
    · rw [if_neg habsent]
      exact ⟨_, rfl⟩

/-- The names of a directory as `lookup_fid` reads them off the paths of a listing. -/
structure DirPath (szDirPath : Text) (ns : List Text) : Prop where
  itself : lookupFid szDirPath = lookupWalk 0 ns
  opened : lookupFid (fullPath szDirPath []) = lookupWalk 0 ns
  entry : ∀ name, '/' ∉ name → name ≠ [] →
    lookupFid (fullPath szDirPath name) = lookupWalk 0 (ns ++ [name])

theorem fullPath_slash {x : Text} (hx : x.getLast? = some '/') (name : Text) :
    fullPath x name = x ++ name := by
  rw [fullPath, if_pos hx, List.append_nil]

theorem fullPath_of_ne {x : Text} (hx : x.getLast? ≠ some '/') (name : Text) :
    fullPath x name = x ++ '/' :: name := by
  rw [fullPath, if_neg hx, List.append_assoc]
  rfl

/-- **Every directory that `BuildPath` names** has its names, unless `lookup_fid` is undefined on
it. -/
theorem dirPath_of_built {start wd p : Text} {arg : Option Text}
    (h : buildPath start wd arg = some p) {fid : ℤ} (hfound : ask (lookupFid p) db = some fid) :
    ∃ ns, DirPath p ns := by
  obtain ⟨l, ns, hl, hb, hns, hform | hform⟩ := buildPath_form h
  · have hlast : p.getLast? ≠ some '/' := by
      rw [hform]
      exact getLast?_render_ne hl fun c hc => (hns c hc).1
    have hpieces : ∀ name, '/' ∉ name → pieces '/' (fullPath p name) = l :: (ns ++ [name]) := by
      intro name hname
      rw [fullPath_of_ne hlast, hform, pieces_append, pieces_of_notMem '/' hname,
        pieces_render '/' hl fun c hc => (hns c hc).1.notMem, List.cons_append]
    have hcons : ∀ name : Text, ns ++ [name] ≠ [] := fun name =>
      List.append_ne_nil_of_right_ne_nil ns (List.cons_ne_nil name [])
    refine ⟨ns, ?_, ?_, ?_⟩
    · rcases List.eq_nil_or_concat' ns with hnil | ⟨cs, m, hconcat⟩
      · rw [hform, hnil, render_nil, List.append_nil] at hfound
        unfold ask at hfound
        rw [(barePath hl hb).lookup_names] at hfound
        cases hfound
      · rw [hform, hconcat]
        rw [hconcat] at hns
        exact (addresses_names hl (fun c hc => hns c (List.mem_append_left _ hc))
          (hns m (List.mem_append_right _ List.mem_cons_self))).lookup_names
    · rw [lookupFid_of_pieces (hpieces [] List.not_mem_nil) (hcons []), List.getLast?_concat,
        if_pos rfl, List.dropLast_concat]
    · intro name hname hne
      rw [lookupFid_of_pieces (hpieces name hname) (hcons name), List.getLast?_concat, if_neg]
      exact fun heq => hne (Option.some.inj heq)
  · have hlast : p.getLast? = some '/' := by
      rw [hform]
      exact List.getLast?_concat
    have hitself : lookupFid p = lookupWalk 0 [] := by
      rw [hform]
      exact (addresses_root hl).lookup_names
    refine ⟨[], hitself, ?_, ?_⟩
    · rw [fullPath_slash hlast, List.append_nil]
      exact hitself
    · intro name hname hne
      have hpieces : pieces '/' (fullPath p name) = l :: [name] := by
        rw [fullPath_slash hlast, hform, List.append_assoc]
        show pieces '/' (l ++ '/' :: name) = _
        rw [pieces_append_of_notMem '/' hl, pieces_of_notMem '/' hname]
      rw [lookupFid_of_pieces hpieces (List.cons_ne_nil _ _), if_neg, List.nil_append]
      exact fun heq => hne (Option.some.inj heq)

/-- Every entry of every directory has a name with `Q`. -/
def AllNames (Q : Text → Prop) (db : Redis) : Prop :=
  ∀ k name v, (db.dirent k).lookup name = some v → Q name

/-- No entry has a slash in its name. -/
def ProperNames (db : Redis) : Prop := AllNames (fun name => '/' ∉ name) db

theorem exists_lookup_of_mem_keys {k : ℕ} (h : name ∈ (db.dirent k).keys) :
    ∃ v, (db.dirent k).lookup name = some v := by
  cases hv : (db.dirent k).lookup name with
  | none => exact absurd (Finmap.mem_keys.1 h) (Finmap.lookup_eq_none.1 hv)
  | some v => exact ⟨v, rfl⟩

/-- **The directories of a file system** are listed as `DirAt` says. -/
theorem dirAt_of_built {start wd p : Text} {arg : Option Text} {k : ℕ}
    (h : buildPath start wd arg = some p) (hproper : ProperNames db)
    (hfound : ask (lookupFid p) db = some (k : ℤ)) :
    DirAt db p ((db.dirent k).keys.sort (· ≤ ·)) := by
  obtain ⟨ns, hpath⟩ := dirPath_of_built h hfound
  have hresult : lookupResult db 0 ns = some (k : ℤ) := by
    rw [ask_lookupFid hpath.itself] at hfound
    exact hfound
  have hk : u32 (k : ℤ) = k := u32_of_namedFid (lookupResult_eq_natCast.1 hresult)
  have hopens : run serveRedis (lookupFid (fullPath p [])) db = .done (k : ℤ) db := by
    rw [hpath.opened, run_lookupWalk, hresult]
    rfl
  refine ⟨⟨k, hopens, ?_⟩, ?_⟩
  · rw [hk]
  · intro name hname
    have hkey : name ∈ (db.dirent k).keys := (Finset.mem_sort _).1 hname
    by_cases hnil : name = []
    · rw [hnil]
      exact statEnds_of_lookup k hopens
    · obtain ⟨v, hv⟩ := exists_lookup_of_mem_keys hkey
      have hfull : (db.dirent k) ≠ ∅ := Dirent.ne_empty_of_lookup hv
      apply statEnds_of_lookup (int32 v)
      rw [hpath.entry name (hproper k name v hv) hnil, run_lookupWalk, lookupResult_append hresult,
        lookupResult, hk, if_neg hfull, hv]
      rfl

/-- The entries that `listTransfer` asks Redis for are those that are sent. -/
theorem run_listDirectory (h : DirAt db szDirPath names) :
    run serveRedis (listDirectory szDirPath) db =
      .done ((foundNames szDirPath names).map fun name => (name, entryStat db szDirPath name))
        db := by
  have hnext : ∀ vdp, (∀ name ∈ vdp, StatEnds db szDirPath name) →
      run serveRedis (findNext szDirPath vdp) db = .done
        ((foundNames szDirPath vdp).map fun name => (name, entryStat db szDirPath name)) db := by
    intro vdp hstats
    induction vdp with
    | nil => rfl
    | cons name vdp ih =>
        obtain ⟨st, hst⟩ := hstats name List.mem_cons_self
        have hentry : entryStat db szDirPath name = st := by
          unfold entryStat ask
          rw [hst]
          rfl
        rw [findNext]
        by_cases hlong : TooLong szDirPath name
        · have hle : MAX_PATH ≤ szDirPath.length + name.length := hlong
          rw [if_pos hle, foundNames_long hlong]
          rfl
        · have hle : ¬ MAX_PATH ≤ szDirPath.length + name.length := hlong
          rw [if_neg hle, foundNames_short hlong, run_bind, hst, Outcome.done_andThen, run_bind,
            ih fun m hm => hstats m (List.mem_cons_of_mem name hm), List.map_cons, hentry]
          rfl
  obtain ⟨k, hrun, hnames⟩ := h.opens
  have hk : ¬ (k : ℤ) < 0 := by omega
  unfold listDirectory
  rw [run_bind, hrun, Outcome.done_andThen, if_neg hk]
  show run serveRedis (findNext szDirPath ((db.dirent (u32 k)).keys.sort (· ≤ ·))) db = _
  rw [← hnames]
  exact hnext names h.stats

end ClusterFtpd
