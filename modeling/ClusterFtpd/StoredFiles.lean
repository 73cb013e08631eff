import ClusterFtpd.UploadRuns

/-!
# The file after an acknowledged upload

The slave chooses the reply of an upload before the metaserver has resolved the directory of the
path and recorded the file.  So 226 may be sent where no size is found, where the directory is not
found, and where the way to the directory takes the entry of the file.

Every upload gets a new fid.  The slave opens the file of this fid, with `O_APPEND` when there is an
offset, so nothing of the old file is in it.

Main results: `acknowledged_upload_iff`: when a 226 means that the file is found under its path;
`append_right_iff`: when an upload at the end of a file appends to it.
-/

namespace ClusterFtpd

open Interaction MachineInt NameGraph

variable {cfg : Config} {env : Env} {cmd : UploadCmd} {pszCmdArg : Option Text} {path : Text}
  {w w' : World} {cs : List Call} {s : SlaveCalls} {disks disks' : Disks} {x : UploadRpc}
  {retval : StorRetVal} {file file' : Option Bytes} {content : Bytes}

/-! ### What the slave has after a 226 -/

/-- Every byte that arrives is written to the file. -/
def SlaveCalls.StoresAll (s : SlaveCalls) (x : UploadRpc) : Prop :=
  (s.Loops x → Delivers s.toStoreCalls x.transfer_buffer_size) ∧ (¬ s.Loops x → s.incoming = [])

/-- The file behind a 226: what was opened, and of the stream what was written. -/
structure Acked (s : SlaveCalls) (x : UploadRpc) (file : Option Bytes) (retval : StorRetVal)
    (content : Bytes) : Prop where
  connects : x.active = true → s.connects = true
  opened : s.openOk = true
  taken : ∃ m, content = (openFile x.iflags file).content ++ s.incoming.take m
  whole : content = (openFile x.iflags file).content ++ s.incoming ↔ s.StoresAll x
  size : retval.size = s.found (some content)

theorem ServeEnd.acked (h : ServeEnd s x file retval file') (hcode : retval.msg.code = some 226) :
    ∃ content, file' = some content ∧ Acked s x file retval content := by
  have hfailed : (Reply.line 550 "Can't store file.").code ≠ some 226 := by decide
  cases h with
  | refused _ => exact absurd hcode (by decide)
  | closed _ _ => exact absurd hcode hfailed
  | broken _ _ _ _ _ => exact absurd hcode hfailed
  | ended g m hconnects hopen hloops _ htaken hall =>
      refine ⟨g.content, rfl, hconnects, hopen, ⟨m, htaken⟩, hall.trans ?_, rfl⟩
      exact ⟨fun hdelivers => ⟨fun _ => hdelivers, fun hno => absurd hloops hno⟩,
        fun hstores => hstores.1 hloops⟩
  | idle hconnects hopen hidle =>
      refine ⟨_, rfl, hconnects, hopen, ⟨0, ?_⟩, ?_, rfl⟩
      · rw [List.take_zero, List.append_nil]
      · constructor
        · intro hall
          exact ⟨fun hloops => absurd hloops hidle, fun _ => List.self_eq_append_right.mp hall⟩
        · intro hstores
          rw [hstores.2 hidle, List.append_nil]

/-! ### What the database has after a 226 -/

/-- What becomes of the record of an acknowledged upload: there is no size, there is no directory,
or the file is recorded. -/
inductive AckedEnd (path : Text) (w w' : World) (s : SlaveCalls) (x : UploadRpc)
    (retval : StorRetVal) : Prop where
  | lost : s.statOk = false → SameFiles w.db w'.db → AckedEnd path w w' s x retval
  | unplaced : s.statOk = true →
      (∀ f : ℕ, ask (lookupFid (parentPath path)) w.db ≠ some (f : ℤ)) → SameFiles w.db w'.db →
      AckedEnd path w w' s x retval
  | saved (f uid gid : ℕ) (now : ℤ) : s.statOk = true →
      ask (lookupFid (parentPath path)) w.db = some (f : ℤ) →
      w'.db.dirent = setEntry w.db.dirent f (entryName path) ((w.db.fid_counter + 1 : ℕ) : ℤ) →
      w'.db.stat = Function.update w.db.stat (w.db.fid_counter + 1)
        (saveStat now { size := retval.size, uid, gid, fid := x.fid, slave := x.slave }) →
      AckedEnd path w w' s x retval

/-- An acknowledged upload: its RPC, the file on the slave and the record. -/
structure AckedUpload (cfg : Config) (cmd : UploadCmd) (path : Text) (w w' : World)
    (cs : List Call) (s : SlaveCalls) (disks disks' : Disks) (x : UploadRpc)
    (retval : StorRetVal) (content : Bytes) : Prop where
  one : uploads cs = [x]
  asked : x.Asked cfg cmd path w
  answer : x.answer = .reply retval
  port : ∃ port, x.slave.port = some port
  stored : Acked s x (disks x.slave x.fid) retval content
  files : disks' = disks.put x.slave x.fid (some content)
  ends : AckedEnd path w w' s x retval

theorem AckedUpload.uploads_ne_nil
    (h : AckedUpload cfg cmd path w w' cs s disks disks' x retval content) : uploads cs ≠ [] := by
  rw [h.one]
  exact List.cons_ne_nil _ _

theorem Acked.size_nonneg (h : Acked s x file retval content) :
    0 ≤ retval.size ↔ s.statOk = true := by
  rw [h.size, found_nonneg]
  exact and_iff_left rfl

/-- **The ends of an acknowledged upload.** -/
theorem UploadRun.acked (h : UploadRun cfg cmd pszCmdArg path w w' cs)
    (hserved : Served s disks disks' cs) (hcounter : w.db.fid_counter + 1 < 2147483648)
    (hcode : finalCode w w' = some 226) :
    ∃ x retval content, AckedUpload cfg cmd path w w' cs s disks disks' x retval content := by
  have hanswered : ∀ {x : UploadRpc} {retval : StorRetVal}, uploads cs = [x] →
      x.Asked cfg cmd path w → x.answer = .reply retval → finalCode w w' = retval.msg.code →
      (∀ content, Acked s x (disks x.slave x.fid) retval content →
        AckedEnd path w w' s x retval) →
      ∃ x retval content, AckedUpload cfg cmd path w w' cs s disks disks' x retval content := by
    intro x retval hone hx hanswer hfinal hends
    have hmem : x ∈ uploads cs := by
      rw [hone]
      exact List.mem_singleton_self x
    obtain ⟨hport, file', hserve, hdisks⟩ := hserved.stored x hmem retval hanswer
    rw [hfinal] at hcode
    obtain ⟨content, hfile, hacked⟩ := (serve_ends hx.iflags hserve).acked hcode
    rw [hfile] at hdisks
    exact ⟨x, retval, content, hone, hx, hanswer, Option.isSome_iff_exists.mp hport, hacked,
      hdisks, hends content hacked⟩
  cases h.outcome with
  | idle _ _ _ hne =>
      exact absurd hcode (hne fun c hc r hr => openReplies_code r (hserved.opened c hc r hr))
  | exception x _ _ _ _ hfinal =>
      rw [hfinal] at hcode
      exact absurd hcode (by decide)
  | unrecorded x retval hone hx hanswer hsize hsame hfinal =>
      apply hanswered hone hx hanswer hfinal
      intro content hacked
      refine .lost ?_ hsame.toSameFiles
      have hno : ¬ s.statOk = true := fun hok => by
        have := hacked.size_nonneg.mpr hok
        omega
      exact Bool.eq_false_iff.mpr hno
  | recorded x retval uid gid now r db hone hx hanswer hsize hsame hrun hfinal =>
      apply hanswered hone hx hanswer hfinal
      intro content hacked
      have hok := hacked.size_nonneg.mp hsize
      rcases hx.saves rfl (by omega) hsame hrun with ⟨hdb, fid, hneg, hfid⟩ | ⟨f, hf, hd, hs, -⟩
      · refine .unplaced hok ?_ ?_
        · intro f hf
          rw [hf, Option.some.injEq] at hfid
          omega
        · rw [hdb]
          exact hsame.toSameFiles
      · exact .saved f uid gid now hok hf hd hs

/-! ### The path of an acknowledged upload -/

/-- The directory of the path is there. -/
def ParentIsDir (db : Redis) (path : Text) : Prop :=
  ∃ st, ask (stat (parentPath path)) db = some (some st) ∧ S_ISDIR st.st_mode = true

/-- The directory of the path is found, and the way to it does not take the entry of the path. -/
def EntryApart (db : Redis) (path : Text) : Prop :=
  ∃ parent entry f, Addresses path (parent ++ [entry]) parent entry ∧
    namedFid db parent = some f ∧ ¬ Uses (child db) 0 parent f entry

/-- The path leads to the file that the slave has stored, of the size that it has answered. -/
structure UploadFound (path : Text) (db : Redis) (x : UploadRpc) (retval : StorRetVal) : Prop where
  fid : ask (lookupFid path) db = some x.fid
  status : ∃ st, ask (stat path) db = some (some st) ∧ S_ISREG st.st_mode = true ∧
    st.st_size = retval.size
  slave : ask (lookupSlaveInfo path) db = some x.slave

/-- **An acknowledged upload is reachable**: its directory is there, and its path leads to what an
answered RPC has stored. -/
def UploadReachable (path : Text) (w w' : World) (cs : List Call) : Prop :=
  ParentIsDir w.db path ∧
    ∃ x ∈ uploads cs, ∃ retval, x.answer = .reply retval ∧ UploadFound path w'.db x retval

theorem isReg_saveStat (now : ℤ) (r : FileRecord) :
    S_ISREG (saveStat now r).toStat.st_mode = true := by
  show S_ISREG (u32 (atoi (some 33279))) = true
  decide

/-- What the lookups answer for a stored file whose entry is apart from its directory. -/
theorem AckedUpload.found (h : AckedUpload cfg cmd path w w' cs s disks disks' x retval content)
    (hcounter : w.db.fid_counter + 1 < 2147483648) (hstat : s.statOk = true)
    (hapart : EntryApart w.db path) : ask (lookupFid path) w'.db = some x.fid ∧
      (∃ st, ask (stat path) w'.db = some (some st) ∧ S_ISREG st.st_mode = true ∧
        st.st_size = int32 (u32 retval.size)) ∧
      ask (lookupSlaveInfo path) w'.db = some x.slave := by
  obtain ⟨parent, entry, f, ha, hf, hway⟩ := hapart
  have hparent : ask (lookupFid (parentPath path)) w.db = some (f : ℤ) :=
    (ask_lookupFid_natCast ha.lookup_parent).mpr hf
  cases h.ends with
  | lost hno _ =>
      rw [hstat] at hno
      cases hno
  | unplaced _ hnowhere _ => exact absurd hparent (hnowhere f)
  | saved g uid gid now _ hg hd hs =>
      rw [hparent, Option.some.injEq, Nat.cast_inj] at hg
      rw [← hg, ha.entry_eq] at hd
      have hfound := lookup_saved hf hway hd hcounter
      have hsaved : w'.db.stat (u32 ((w.db.fid_counter + 1 : ℕ) : ℤ)) =
          saveStat now { size := retval.size, uid, gid, fid := x.fid, slave := x.slave } := by
        rw [u32_natCast (by omega), hs, Function.update_self]
      obtain ⟨hfid, hread, hslave⟩ :=
        saved_reads ha.lookup_names hfound (by omega) hsaved h.port
      refine ⟨hfid.trans (congrArg some h.asked.fid.symm), ?_, hslave⟩
      exact ⟨_, hread, isReg_saveStat _ _, st_size_saveStat _ _⟩

/-- The next fid is found under no path. -/
theorem FidsDrawn.ask_ne_next {db : Redis} (h : FidsDrawn db)
    (hcounter : db.fid_counter < 4294967296) (q : Text) :
    ask (lookupFid q) db ≠ some ((db.fid_counter + 1 : ℕ) : ℤ) := by
  rcases lookupFid_form q with ⟨ns, hwalk⟩ | hundefined
  · rw [ask_lookupFid hwalk]
    exact h.lookup_ne_next hcounter ns
  · unfold ask
    rw [hundefined]
    show (none : Option ℤ) ≠ _
    exact (Option.some_ne_none _).symm

/-- A path of a session that leads to another fid than that of the root has a last name. -/
theorem addresses_of_found {c : Client} {arg : Option Text} {db : Redis} {fid : ℤ}
    (hbuild : c.buildPath arg = some path) (hfound : ask (lookupFid path) db = some fid)
    (hpos : 0 < fid) : ∃ parent entry k, Addresses path (parent ++ [entry]) parent entry ∧
      namedFid db (parent ++ [entry]) = some k := by
  rcases addresses_of_built hbuild with hbare | ⟨names, parent, entry, ha⟩
  · unfold ask at hfound
    rw [hbare.lookup_names] at hfound
    cases hfound
  rw [ask_lookupFid ha.lookup_names] at hfound
  rcases ha.shape with ⟨hnames, -⟩ | ⟨hroot, -, -⟩
  · have hnat : fid = ((fid.toNat : ℕ) : ℤ) := by omega
    rw [hnat, lookupResult_eq_natCast, hnames] at hfound
    rw [hnames] at ha
    exact ⟨parent, entry, fid.toNat, ha, hfound⟩
  · rw [hroot] at hfound
    have hzero : some (0 : ℤ) = some fid := hfound
    rw [Option.some.injEq] at hzero
    omega

/-- Where anything but the root is found after the file is recorded, the entry is apart from its
directory. -/
theorem AckedUpload.apart_of_found {f : ℕ} {fid : ℤ}
    (h : AckedUpload cfg cmd path w w' cs s disks disks' x retval content)
    (hrun : UploadRun cfg cmd pszCmdArg path w w' cs) (hdrawn : FidsDrawn w.db)
    (hcounter : w.db.fid_counter + 1 < 2147483648)
    (hf : ask (lookupFid (parentPath path)) w.db = some (f : ℤ))
    (hd : w'.db.dirent = setEntry w.db.dirent f (entryName path) ((w.db.fid_counter + 1 : ℕ) : ℤ))
    (hfound : ask (lookupFid path) w'.db = some fid) (hpos : 0 < fid) : EntryApart w.db path := by
  obtain ⟨arg, hbuild⟩ := hrun.built h.uploads_ne_nil
  obtain ⟨parent, entry, k, ha, hk⟩ := addresses_of_found hbuild hfound hpos
  rw [ask_lookupFid_natCast ha.lookup_parent] at hf
  rw [ha.entry_eq] at hd
  refine ⟨parent, entry, f, ha, hf, ?_⟩
  intro huses
  have hnone := hdrawn.lost_of_uses (by omega) hf hd huses
  rw [hk] at hnone
  cases hnone

/-- What is found under the path has been recorded, in a directory apart from its entry. -/
theorem AckedUpload.apart (h : AckedUpload cfg cmd path w w' cs s disks disks' x retval content)
    (hrun : UploadRun cfg cmd pszCmdArg path w w' cs) (hdrawn : FidsDrawn w.db)
    (hcounter : w.db.fid_counter + 1 < 2147483648)
    (hfound : ask (lookupFid path) w'.db = some x.fid) :
    s.statOk = true ∧ EntryApart w.db path := by
  have hsame : ¬ SameFiles w.db w'.db := by
    intro hsame
    rw [hsame.answers.fid, h.asked.fid] at hfound
    exact hdrawn.ask_ne_next (by omega) path hfound
  cases h.ends with
  | lost _ hlost => exact absurd hlost hsame
  | unplaced _ _ hunplaced => exact absurd hunplaced hsame
  | saved f uid gid now hstat hf hd hs =>
      have hpos : 0 < x.fid := by
        rw [h.asked.fid]
        exact Int.natCast_pos.mpr (Nat.succ_pos _)
      exact ⟨hstat, h.apart_of_found hrun hdrawn hcounter hf hd hfound hpos⟩

/-- **A 226 means that the file is found** when the slave finds its size and its directory is one,
apart from its entry; and only then, where the entries hold drawn fids. -/
theorem acknowledged_upload_iff (h : UploadRun cfg cmd pszCmdArg path w w' cs)
    (hserved : Served s disks disks' cs) (hcounter : w.db.fid_counter + 1 < 2147483648)
    (hsizes : ∀ x ∈ uploads cs, ∀ retval, x.answer = .reply retval → retval.size < 2147483648)
    (hcode : finalCode w w' = some 226) :
    (s.statOk = true ∧ ParentIsDir w.db path ∧ EntryApart w.db path →
      UploadReachable path w w' cs) ∧
    (FidsDrawn w.db → (UploadReachable path w w' cs ↔
      s.statOk = true ∧ ParentIsDir w.db path ∧ EntryApart w.db path)) := by
  obtain ⟨x, retval, content, hacked⟩ := h.acked hserved hcounter hcode
  have hmem : x ∈ uploads cs := by
    rw [hacked.one]
    exact List.mem_singleton_self x
  have henough : s.statOk = true ∧ ParentIsDir w.db path ∧ EntryApart w.db path →
      UploadReachable path w w' cs := by
    intro hgood
    obtain ⟨hstat, hdir, hapart⟩ := hgood
    obtain ⟨hfid, ⟨st, hread, hreg, hsize⟩, hslave⟩ := hacked.found hcounter hstat hapart
    have hsmall := hsizes x hmem retval hacked.answer
    have hnonneg := hacked.stored.size_nonneg.mpr hstat
    rw [int32_u32 (by omega) hsmall] at hsize
    exact ⟨hdir, x, hmem, retval, hacked.answer, hfid, ⟨st, hread, hreg, hsize⟩, hslave⟩
  refine ⟨henough, ?_⟩
  intro hdrawn
  refine ⟨?_, henough⟩
  intro hreachable
  obtain ⟨hdir, y, hy, retval', -, hfound⟩ := hreachable
  rw [hacked.one, List.mem_singleton] at hy
  have hfid := hfound.fid
  rw [hy] at hfid
  obtain ⟨hstat, hapart⟩ := hacked.apart h hdrawn hcounter hfid
  exact ⟨hstat, hdir, hapart⟩

/-! ### The upload of an empty file -/

/-- The client sends nothing, and `stat` finds the file or does not. -/
def emptyStored (statOk : Bool) : SlaveCalls := { emptyUpload true .eof with statOk }

/-- The slave has the empty file, and answers its size when it finds it. -/
def stored (statOk : Bool) : StorRetVal := ⟨storedMsg, if statOk then 0 else -1⟩

theorem store_empty {restart_at : ℤ} (hoffset : 0 ≤ restart_at) (statOk : Bool)
    (iflags : OpenFlag) :
    store (emptyStored statOk).toStoreCalls 32768 restart_at iflags true none =
      some (stored statOk, some []) := by
  have hseek : (emptyStored statOk).Seeks restart_at := by
    rcases hoffset.eq_or_lt with hzero | hpos
    · exact .inr hzero.symm
    · exact .inl ⟨hpos, rfl⟩
  rw [store_looped rfl hseek rfl]
  show (storeLoop _ _ [] _ 0 0 []).map _ = _
  rw [storeLoop, dif_pos rfl]
  show (some (lastWrite _ 0 _ [])).map _ = _
  rw [lastWrite, safeWrite, dif_pos rfl]
  cases iflags <;> cases statOk <;> rfl

/-- The slave of the guest stores the empty file. -/
theorem served_stored {RestartAt : ℤ} {statOk : Bool} (hoffset : 0 ≤ RestartAt)
    (hone : uploads cs = [storedRpc RestartAt (stored statOk)])
    (hopened : cs.filterMap Call.opened = []) (hnew : disks slaveA 2 = none) :
    Served (emptyStored statOk) disks (disks.put slaveA 2 (some [])) cs := by
  refine served_one hone hopened rfl rfl ?_
  show store _ 32768 RestartAt _ true (disks slaveA 2) = _
  rw [hnew]
  exact store_empty hoffset statOk _

/-- The size of the empty file. -/
theorem stored_small {RestartAt : ℤ} {statOk : Bool}
    (hone : uploads cs = [storedRpc RestartAt (stored statOk)]) :
    ∀ x ∈ uploads cs, ∀ retval, x.answer = .reply retval → retval.size < 2147483648 := by
  intro x hx retval hanswer
  rw [hone, List.mem_singleton] at hx
  rw [hx] at hanswer
  cases hanswer
  cases statOk <;> decide

theorem entryApart_a : EntryApart oneByte "/a".toList := by
  refine ⟨[], ['a'], 0, ⟨rfl, rfl, rfl, .inl ⟨rfl, by decide⟩⟩, rfl, ?_⟩
  intro huses
  obtain ⟨xs, ys, hnil, -⟩ := huses
  cases xs <;> cases hnil

/-- `STOR /a` over the old file: the path leads to the new one. -/
theorem acknowledged_upload_a :
    UploadReachable "/a".toList uploadWorld
      (storedWorld (startedWorld "/a".toList 0) (stored true))
      (storingCalls "/a".toList 0 (stored true)) := by
  have hrun := uploadRun_a (stored true) rfl
  have hone : uploads (storingCalls "/a".toList 0 (stored true)) =
      [storedRpc 0 (stored true)] := rfl
  have hserved : Served (emptyStored true) (fun _ _ => none) _ _ :=
    served_stored (Int.le_refl 0) hone rfl rfl
  exact (acknowledged_upload_iff hrun hserved (by decide) (stored_small hone) rfl).1
    ⟨rfl, ⟨_, rfl, rfl⟩, entryApart_a⟩

/-- `STOR /b/a` without a directory `/b`: the reply is 226, and the path leads nowhere. -/
theorem acknowledged_nowhere :
    ¬ ∀ (cfg : Config) (cmd : UploadCmd) (pszCmdArg : Option Text) (path : Text) (w w' : World)
      (cs : List Call) (s : SlaveCalls) (disks disks' : Disks),
      UploadRun cfg cmd pszCmdArg path w w' cs → Served s disks disks' cs →
      w.db.fid_counter + 1 < 2147483648 →
      (∀ x ∈ uploads cs, ∀ retval, x.answer = .reply retval → retval.size < 2147483648) →
      finalCode w w' = some 226 → UploadReachable path w w' cs := by
  intro hall
  have hcanon : Canonical "/b/a".toList := ⟨[['b'], ['a']], by decide, rfl⟩
  have hrun : UploadRun oneSlave .stor (some "/b/a".toList) "/b/a".toList uploadWorld
      (storedWorld (startedWorld "/b/a".toList 0) (stored true))
      (storingCalls "/b/a".toList 0 (stored true)) :=
    uploadRun_guest UploadCmd.noConfusion 0 (stored true) (guest_buildPath rfl hcanon (by decide))
      ⟨rfl, rfl⟩ rfl
  have hone : uploads (storingCalls "/b/a".toList 0 (stored true)) =
      [storedRpc 0 (stored true)] := rfl
  have hserved : Served (emptyStored true) (fun _ _ => none) _ _ :=
    served_stored (Int.le_refl 0) hone rfl rfl
  have hreachable :=
    hall _ _ _ _ _ _ _ _ _ _ hrun hserved (by decide) (stored_small hone) rfl
  obtain ⟨st, hst, -⟩ := hreachable.1
  have hnone : ask (stat (parentPath "/b/a".toList)) oneByte = some none := rfl
  have hparent : some (some st) = some none := hst.symm.trans hnone
  cases hparent

/-! ### Appending -/

/-- `path` is a regular file with these bytes: a download asks this slave for this fid. -/
structure FileAt (disks : Disks) (db : Redis) (path : Text) (fid : ℤ) (slave : SlaveInfo)
    (content : Bytes) : Prop where
  fid_pos : 0 < fid
  found : ask (lookupFid path) db = some fid
  recorded : ask (lookupSlaveInfo path) db = some slave
  file : disks slave fid = some content
  status : ∃ st, ask (stat path) db = some (some st) ∧ S_ISREG st.st_mode = true ∧
    st.st_size = content.length

/-- The regular file `path` holds these bytes. -/
def HoldsFile (disks : Disks) (db : Redis) (path : Text) (content : Bytes) : Prop :=
  ∃ fid slave, FileAt disks db path fid slave content

/-- What a download of the path asks for is the file. -/
theorem FileAt.asked {db : Redis} {fid fid' : ℤ} {slave : SlaveInfo}
    (h : FileAt disks db path fid slave content) (hfid : ask (lookupFid path) db = some fid') :
    disks (slaveOf db fid') fid' = some content := by
  have hsame : fid = fid' := Option.some.inj (h.found.symm.trans hfid)
  have hslave : slaveOf db fid = slave := by
    have hread := h.recorded
    rcases lookupFid_form path with ⟨ns, hwalk⟩ | hundefined
    · rw [ask_lookupSlaveInfo hwalk, ← ask_lookupFid hwalk, h.found, Option.map_some,
        Option.some.injEq] at hread
      exact hread
    · have hnone := h.found
      unfold ask at hnone
      rw [hundefined] at hnone
      cases hnone
  rw [← hsame, hslave]
  exact h.file

/-- Entries hold drawn fids, and the slaves have files under drawn fids only. -/
structure Drawn (disks : Disks) (db : Redis) : Prop where
  fids : FidsDrawn db
  files : ∀ slave (fid : ℤ), (db.fid_counter : ℤ) < fid → disks slave fid = none

/-- What is found under a path has been drawn. -/
theorem FidsDrawn.ask_le {db : Redis} {k : ℕ} (h : FidsDrawn db)
    (hcounter : db.fid_counter < 4294967296) {q : Text}
    (hfound : ask (lookupFid q) db = some (k : ℤ)) : k ≤ db.fid_counter := by
  rcases lookupFid_form q with ⟨ns, hwalk⟩ | hundefined
  · exact h.found_le hcounter ((ask_lookupFid_natCast hwalk).mp hfound)
  · unfold ask at hfound
    rw [hundefined] at hfound
    cases hfound

theorem FidTaken.drawn {db db' : Redis} (h : FidTaken db db') (hdrawn : FidsDrawn db) :
    FidsDrawn db' := by
  apply hdrawn.congr h.dirent
  rw [h.fid_counter]
  exact Nat.le_succ _

/-- An upload enters its own fid only. -/
theorem UploadRun.fids (h : UploadRun cfg cmd pszCmdArg path w w' cs) (hdrawn : FidsDrawn w.db)
    (hcounter : w.db.fid_counter + 1 < 4294967296) : FidsDrawn w'.db ∧
      w.db.fid_counter ≤ w'.db.fid_counter ∧ ∀ x ∈ uploads cs, x.fid = w'.db.fid_counter := by
  have hone : ∀ {x : UploadRpc}, uploads cs = [x] → x.Asked cfg cmd path w →
      w'.db.fid_counter = w.db.fid_counter + 1 →
      w.db.fid_counter ≤ w'.db.fid_counter ∧ ∀ x ∈ uploads cs, x.fid = w'.db.fid_counter := by
    intro x hone hx hnext
    refine ⟨by omega, ?_⟩
    intro y hy
    rw [hone, List.mem_singleton] at hy
    rw [hy, hx.fid, hnext]
    rfl
  cases h.outcome with
  | idle hnone hsame hle _ =>
      refine ⟨hdrawn.congr hsame.dirent hle, hle, ?_⟩
      rw [hnone]
      intro x hx
      cases hx
  | exception x hx₁ hx _ htaken _ => exact ⟨htaken.drawn hdrawn, hone hx₁ hx htaken.fid_counter⟩
  | unrecorded x retval hx₁ hx _ _ htaken _ =>
      exact ⟨htaken.drawn hdrawn, hone hx₁ hx htaken.fid_counter⟩
  | recorded x retval uid gid now r db hx₁ hx _ _ htaken hrun _ =>
      rcases hx.saves rfl hcounter htaken hrun with ⟨hsame, -⟩ | ⟨f, hf, hd, -, hnext⟩
      · rw [hsame]
        rw [hsame] at hone
        exact ⟨htaken.drawn hdrawn, hone hx₁ hx htaken.fid_counter⟩
      · refine ⟨?_, hone hx₁ hx hnext⟩
        have hle := hdrawn.ask_le (by omega) hf
        unfold FidsDrawn
        rw [hd, hnext]
        apply forall_setEntry
        · have hnew : FidsDrawn { w.db with fid_counter := w.db.fid_counter + 1 } :=
            hdrawn.congr rfl (Nat.le_succ _)
          exact hnew
        · exact ⟨by omega, .inr ⟨w.db.fid_counter + 1, Nat.le_refl _, rfl⟩⟩

/-- **An upload** keeps what is drawn. -/
theorem UploadRun.drawn (h : UploadRun cfg cmd pszCmdArg path w w' cs)
    (hserved : Served s disks disks' cs) (hdrawn : Drawn disks w.db)
    (hcounter : w.db.fid_counter + 1 < 4294967296) : Drawn disks' w'.db := by
  obtain ⟨hfids, hle, hnew⟩ := h.fids hdrawn.fids hcounter
  refine ⟨hfids, ?_⟩
  intro slave fid hfid
  rw [hserved.others slave fid]
  · apply hdrawn.files
    omega
  · intro x hx hsame
    have hnext := hnew x hx
    omega

/-- The virtual file system with the sessions' pending names, and the files of the slaves. -/
structure ClusterState where
  vfs : VfsState
  disks : Disks

/-- A command of a session, or an upload with its slave. -/
inductive ClusterStep (t : ClusterState) : ClusterState → Prop where
  | command {i : ℕ} {c : VfsCmd} {v : VfsState} : VfsStep t.vfs i c v →
      ClusterStep t { t with vfs := v }
  | upload {cfg : Config} {cmd : UploadCmd} {pszCmdArg : Option Text} {path : Text} {w w' : World}
      {cs : List Call} {s : SlaveCalls} {disks' : Disks} : w.db = t.vfs.db →
      UploadRun cfg cmd pszCmdArg path w w' cs → Served s t.disks disks' cs →
      ClusterStep t ⟨{ t.vfs with db := w'.db }, disks'⟩

/-- A run from the database of `InitRedis` and slaves without files, in which the counter does not
overflow. -/
inductive ClusterRun (now : ℤ) : ClusterState → Prop where
  | init : ClusterRun now ⟨.init now, fun _ _ => none⟩
  | step {t t' : ClusterState} : ClusterRun now t → t.vfs.db.fid_counter + 1 < 4294967296 →
      ClusterStep t t' → ClusterRun now t'

/-- **Runs.**  In every run entries hold drawn fids, and files are under drawn fids. -/
theorem ClusterRun.drawn {now : ℤ} {t : ClusterState} (h : ClusterRun now t) :
    Drawn t.disks t.vfs.db := by
  have hboth : Drawn t.disks t.vfs.db ∧ ∀ i, PendingPath (t.vfs.szRenameFromPath i) := by
    induction h with
    | init => exact ⟨⟨fidsDrawn_initRedis now, fun _ _ _ => rfl⟩, fun _ => pendingPath_nil⟩
    | step hrun hcounter hstep ih =>
        obtain ⟨hdrawn, hpend⟩ := ih
        cases hstep with
        | command hdone =>
            cases hdone with
            | ends hdone =>
                have hends := VfsCmd.ends (hpend _) hdone
                refine ⟨⟨hdrawn.fids.step hcounter hends, ?_⟩,
                  fun i => PendingPath.update hpend (hends.pending (hpend _)) i _⟩
                intro slave fid hfid
                apply hdrawn.files
                exact (Int.ofNat_le.mpr hends.fid_counter_le).trans_lt hfid
        | upload hdb hupload hserved =>
            rw [← hdb] at hdrawn hcounter
            exact ⟨hupload.drawn hserved hdrawn hcounter, hpend⟩
  exact hboth.1

/-- Every byte that arrives is written by an upload from the start of a file. -/
def SlaveCalls.WritesAll (s : SlaveCalls) (cfg : Config) (w : World) : Prop :=
  (w.client.eDataConnection = .port ∨ s.valid = true →
      Delivers s.toStoreCalls cfg.uiTransferBufferSize) ∧
    (¬ (w.client.eDataConnection = .port ∨ s.valid = true) → s.incoming = [])

/-- Bytes that are not many arrive for an empty file, and they are written, found and recorded. -/
structure FillsEmpty (cfg : Config) (path : Text) (w : World) (s : SlaveCalls) (content : Bytes) :
    Prop where
  empty : content = []
  stat : s.statOk = true
  writes : s.WritesAll cfg w
  small : s.incoming.length < 2147483648
  apart : EntryApart w.db path

theorem storesAll_iff (hx : x.Asked cfg cmd path w) (hzero : x.restart_at = 0) :
    s.StoresAll x ↔ s.WritesAll cfg w := by
  have hruns : s.Loops x ↔ w.client.eDataConnection = .port ∨ s.valid = true := by
    unfold SlaveCalls.Loops
    rw [Bool.or_eq_true, hx.active]
    exact and_iff_right (.inr hzero)
  unfold SlaveCalls.StoresAll SlaveCalls.WritesAll
  rw [hruns, hx.transfer_buffer_size]

/-- The upload starts behind the last byte of the file. -/
theorem starts_behind {fid : ℤ} {slave : SlaveInfo} (hx : x.Asked cfg cmd path w)
    (hat : FileAt disks w.db path fid slave content)
    (hstart : cmd = .appe ∨ cmd = .stor ∧ w.client.CurrentTransfer.RestartAt = content.length) :
    x.restart_at = content.length := by
  rw [hx.restart_at]
  unfold World.startOffset
  rcases hstart with happe | ⟨hstor, hoffset⟩
  · obtain ⟨st, hst, -, hsize⟩ := hat.status
    rw [if_pos happe, hst]
    exact hsize
  · have hne : cmd ≠ .appe := by
      rw [hstor]
      exact UploadCmd.noConfusion
    rw [if_neg hne]
    exact hoffset

/-- A file under another fid is still there when nothing is recorded. -/
theorem FileAt.kept {db db' : Redis} {fid : ℤ} {slave : SlaveInfo}
    (h : FileAt disks db path fid slave content) (hsame : SameFiles db db') (hne : fid ≠ x.fid)
    (file : Option Bytes) : FileAt (disks.put x.slave x.fid file) db' path fid slave content := by
  obtain ⟨st, hst, hreg, hsize⟩ := h.status
  refine ⟨h.fid_pos, ?_, ?_, ?_, st, ?_, hreg, hsize⟩
  · rw [hsame.answers.fid]
    exact h.found
  · rw [hsame.answers.slave]
    exact h.recorded
  · rw [← h.file]
    exact if_neg fun hboth => hne hboth.2
  · rw [hsame.answers.status]
    exact hst

theorem FileAt.unique {db : Redis} {fid fid' : ℤ} {slave slave' : SlaveInfo} {content' : Bytes}
    (h : FileAt disks db path fid slave content) (h' : FileAt disks db path fid' slave' content') :
    content' = content := by
  have hfid : fid = fid' := Option.some.inj (h.found.symm.trans h'.found)
  have hslave : slave = slave' := Option.some.inj (h.recorded.symm.trans h'.recorded)
  have hfile := h'.file
  rw [← hfid, ← hslave, h.file, Option.some.injEq] at hfile
  exact hfile.symm

/-- The directory of a file that is found is found. -/
theorem FidsDrawn.parent_of_found {db : Redis} {fid : ℤ} {arg : Option Text} {c : Client}
    (hdrawn : FidsDrawn db) (hcounter : db.fid_counter < 2147483648)
    (hbuild : c.buildPath arg = some path) (hfound : ask (lookupFid path) db = some fid)
    (hpos : 0 < fid) : ∃ f : ℕ, ask (lookupFid (parentPath path)) db = some (f : ℤ) := by
  obtain ⟨parent, entry, k, ha, hk⟩ := addresses_of_found hbuild hfound hpos
  obtain ⟨f, hf⟩ := hdrawn.parent_found hcounter hk
  exact ⟨f, (ask_lookupFid_natCast ha.lookup_parent).mpr hf⟩

/-- What is found under the path of an upload to an old file: that file, as long as nothing is
recorded. -/
theorem AckedUpload.append_iff_of_same {fid : ℤ} {slave : SlaveInfo} {written : Bytes}
    (h : AckedUpload cfg cmd path w w' cs s disks disks' x retval written)
    (hsame : SameFiles w.db w'.db) (hat : FileAt disks w.db path fid slave content)
    (hne : fid ≠ x.fid) :
    HoldsFile disks' w'.db path (content ++ s.incoming) ↔ s.incoming = [] := by
  have hkept := hat.kept hsame hne (some written)
  rw [← h.files] at hkept
  constructor
  · intro hafter
    obtain ⟨fid', slave', hat'⟩ := hafter
    exact List.append_right_eq_self.mp (hkept.unique hat')
  · intro hnothing
    rw [hnothing, List.append_nil]
    exact ⟨fid, slave, hkept⟩

/-- The file of a new fid has only what has arrived. -/
theorem AckedUpload.empty_of_append {written : Bytes}
    (h : AckedUpload cfg cmd path w w' cs s disks disks' x retval written)
    (hdrawn : Drawn disks w.db) (hall : written = content ++ s.incoming) : content = [] := by
  have hnew : disks x.slave x.fid = none := by
    apply hdrawn.files
    rw [h.asked.fid]
    exact Nat.cast_lt.mpr (Nat.lt_succ_self _)
  have hopened : (openFile x.iflags (disks x.slave x.fid)).content = [] := by
    rw [hnew]
    cases x.iflags with
    | append => rfl
    | trunc => rfl
  obtain ⟨m, htaken⟩ := h.stored.taken
  rw [hopened, List.nil_append, hall] at htaken
  have hlen := congrArg List.length htaken
  rw [List.length_append, List.length_take] at hlen
  exact List.length_eq_zero_iff.mp (by omega)

/-- From the start of a file the bytes are all there exactly when they are all written. -/
theorem AckedUpload.whole_iff {written : Bytes}
    (h : AckedUpload cfg cmd path w w' cs s disks disks' x retval written)
    (hzero : x.restart_at = 0) : written = s.incoming ↔ s.WritesAll cfg w := by
  have hflags : x.iflags = .trunc := by
    rw [h.asked.iflags, hzero]
    rfl
  have hwhole := h.stored.whole
  rw [hflags] at hwhole
  exact hwhole.trans (storesAll_iff h.asked hzero)

/-- The size of the file that is stored is the one that is answered. -/
theorem AckedUpload.size_eq {written : Bytes}
    (h : AckedUpload cfg cmd path w w' cs s disks disks' x retval written)
    (hstat : s.statOk = true) : retval.size = written.length := by
  rw [h.stored.size]
  exact if_pos hstat

/-- **The recorded file** holds the old bytes and the new ones exactly when there are no old ones
and the new ones fill it. -/
theorem AckedUpload.append_iff_of_saved {written : Bytes}
    (h : AckedUpload cfg cmd path w w' cs s disks disks' x retval written)
    (hdrawn : Drawn disks w.db) (hcounter : w.db.fid_counter + 1 < 2147483648)
    (hstat : s.statOk = true)
    (hapart : ∀ fid, ask (lookupFid path) w'.db = some fid → 0 < fid → EntryApart w.db path)
    (hstart : x.restart_at = content.length) :
    HoldsFile disks' w'.db path (content ++ s.incoming) ↔ FillsEmpty cfg path w s content := by
  have hfile : disks' x.slave x.fid = some written := by
    rw [h.files]
    exact if_pos ⟨rfl, rfl⟩
  have hsize := h.size_eq hstat
  constructor
  · intro hafter
    obtain ⟨fid, slave, hat⟩ := hafter
    have hway := hapart fid hat.found hat.fid_pos
    obtain ⟨hfid, ⟨st, hst, -, hread⟩, hslave⟩ := h.found hcounter hstat hway
    have hfid' : fid = x.fid := Option.some.inj (hat.found.symm.trans hfid)
    have hslave' : slave = x.slave := Option.some.inj (hat.recorded.symm.trans hslave)
    have hwritten := hat.file
    rw [hfid', hslave', hfile, Option.some.injEq] at hwritten
    have hempty := h.empty_of_append hdrawn hwritten
    have hzero : x.restart_at = 0 := by
      rw [hstart, hempty]
      rfl
    rw [hempty, List.nil_append] at hwritten
    refine ⟨hempty, hstat, (h.whole_iff hzero).mp hwritten, ?_, hway⟩
    obtain ⟨st', hst', -, hlen⟩ := hat.status
    rw [hst, Option.some.injEq, Option.some.injEq] at hst'
    rw [← hst', hread, hempty, List.nil_append] at hlen
    have hlt := int32_lt (u32 retval.size)
    omega
  · intro hfills
    have hzero : x.restart_at = 0 := by
      rw [hstart, hfills.empty]
      rfl
    have hwritten := (h.whole_iff hzero).mpr hfills.writes
    have hsmall := hfills.small
    obtain ⟨hfid, ⟨st, hst, hreg, hread⟩, hslave⟩ := h.found hcounter hstat hfills.apart
    rw [hwritten] at hsize hfile
    refine ⟨x.fid, x.slave, ?_, hfid, hslave, ?_, st, hst, hreg, ?_⟩
    · rw [h.asked.fid]
      exact Int.natCast_pos.mpr (Nat.succ_pos _)
    · rw [hfile, hfills.empty, List.nil_append]
    · rw [hread, hsize, hfills.empty, List.nil_append]
      exact int32_u32 (by omega) (by omega)

/-- **An acknowledged upload at the end of a file** appends to it when the file is empty and the
bytes fill a new one, or when nothing arrives and nothing is recorded; and only then. -/
theorem append_right_iff (h : UploadRun cfg cmd pszCmdArg path w w' cs)
    (hserved : Served s disks disks' cs) (hdrawn : Drawn disks w.db)
    (hcounter : w.db.fid_counter + 1 < 2147483648) (hholds : HoldsFile disks w.db path content)
    (hstart : cmd = .appe ∨ cmd = .stor ∧ w.client.CurrentTransfer.RestartAt = content.length)
    (hcode : finalCode w w' = some 226) :
    HoldsFile disks' w'.db path (content ++ s.incoming) ↔
      FillsEmpty cfg path w s content ∨ (s.statOk = false ∧ s.incoming = []) := by
  obtain ⟨x, retval, written, hacked⟩ := h.acked hserved hcounter hcode
  obtain ⟨fid, slave, hat⟩ := hholds
  have hne : fid ≠ x.fid := by
    intro heq
    apply hdrawn.fids.ask_ne_next (by omega) path
    rw [hat.found, heq, hacked.asked.fid]
    rfl
  cases hacked.ends with
  | lost hno hsame =>
      rw [hacked.append_iff_of_same hsame hat hne]
      have hnot : ¬ FillsEmpty cfg path w s content := by
        intro hfills
        rw [hfills.stat] at hno
        cases hno
      exact ⟨fun hnothing => .inr ⟨hno, hnothing⟩,
        fun heither => (heither.resolve_left hnot).2⟩
  | unplaced hstat hnowhere hsame =>
      obtain ⟨arg, hbuild⟩ := h.built hacked.uploads_ne_nil
      obtain ⟨f, hf⟩ :=
        hdrawn.fids.parent_of_found (by omega) hbuild hat.found hat.fid_pos
      exact absurd hf (hnowhere f)
  | saved f uid gid now hstat hf hd hs =>
      have hapart : ∀ fid, ask (lookupFid path) w'.db = some fid → 0 < fid →
          EntryApart w.db path :=
        fun fid hfound hpos =>
          hacked.apart_of_found h hdrawn.fids hcounter hf hd hfound hpos
      have hnot : ¬ (s.statOk = false ∧ s.incoming = []) := by
        intro hno
        rw [hstat] at hno
        cases hno.1
      rw [hacked.append_iff_of_saved hdrawn hcounter hstat hapart
        (starts_behind hacked.asked hat hstart)]
      exact ⟨.inl, fun heither => heither.resolve_right hnot⟩

/-! ### The file of one byte -/

/-- The slave has the byte of `/a`. -/
def oneDisk : Disks := fun slave fid => if slave = slaveA ∧ fid = 1 then some [7] else none

theorem drawn_oneByte : Drawn oneDisk oneByte := by
  refine ⟨fidsDrawn_oneByte, ?_⟩
  intro slave fid hfid
  have hcounter : oneByte.fid_counter = 1 := rfl
  have hne : ¬ (slave = slaveA ∧ fid = 1) := by
    intro hboth
    rw [hboth.2, hcounter] at hfid
    omega
  exact if_neg hne

theorem holdsFile_oneByte : HoldsFile oneDisk oneByte "/a".toList [7] :=
  ⟨1, slaveA, by decide, rfl, rfl, rfl, _, rfl, rfl, rfl⟩

/-- `APPE /a` with its thread. -/
theorem uploadRun_appe (retval : StorRetVal)
    (hends : run (serveCommand (.storing retval)) storing (startedWorld "/a".toList 1) =
      .done () (storedWorld (startedWorld "/a".toList 1) retval)) :
    UploadRun oneSlave .appe (some "/a".toList) "/a".toList uploadWorld
      (storedWorld (startedWorld "/a".toList 1) retval) (storingCalls "/a".toList 1 retval) :=
  uploadRun_guest UploadCmd.noConfusion 1 retval (guest_a rfl) ⟨rfl, rfl⟩ hends

/-- Nothing arrives, and the size of the new file is not found: the old file stays. -/
theorem append_right_nothing :
    HoldsFile (oneDisk.put slaveA 2 (some []))
      (storedWorld (startedWorld "/a".toList 1) (stored false)).db "/a".toList [7] := by
  have hrun := uploadRun_appe (stored false) rfl
  have hone : uploads (storingCalls "/a".toList 1 (stored false)) =
      [storedRpc 1 (stored false)] := rfl
  have hserved : Served (emptyStored false) oneDisk _ _ :=
    served_stored (by decide) hone rfl rfl
  exact (append_right_iff hrun hserved drawn_oneByte (by decide) holdsFile_oneByte (.inl rfl)
    rfl).mpr (.inr ⟨rfl, rfl⟩)

/-- `APPE /a` of nothing: the path then leads to a new, empty file. -/
theorem append_empties :
    ¬ ∀ (cfg : Config) (cmd : UploadCmd) (pszCmdArg : Option Text) (path : Text) (w w' : World)
      (cs : List Call) (s : SlaveCalls) (disks disks' : Disks) (content : Bytes),
      UploadRun cfg cmd pszCmdArg path w w' cs → Served s disks disks' cs →
      Drawn disks w.db → w.db.fid_counter + 1 < 2147483648 →
      HoldsFile disks w.db path content →
      (cmd = .appe ∨ cmd = .stor ∧ w.client.CurrentTransfer.RestartAt = content.length) →
      finalCode w w' = some 226 → HoldsFile disks' w'.db path (content ++ s.incoming) := by
  intro hall
  have hrun := uploadRun_appe (stored true) rfl
  have hone : uploads (storingCalls "/a".toList 1 (stored true)) =
      [storedRpc 1 (stored true)] := rfl
  have hserved : Served (emptyStored true) oneDisk _ _ :=
    served_stored (by decide) hone rfl rfl
  obtain ⟨fid, slave, hat⟩ := hall _ _ _ _ _ _ _ _ _ _ _ hrun hserved drawn_oneByte (by decide)
    holdsFile_oneByte (.inl rfl) rfl
  have hdb : (storedWorld (startedWorld "/a".toList 1) (stored true)).db = applyAll
      (saveWrites 0 0 ['a'] ⟨0, 1, 1, 2, slaveA⟩)
      { oneByte.incrFid with transaction_counter := 1 } := rfl
  have hfid : ask (lookupFid "/a".toList)
      (storedWorld (startedWorld "/a".toList 1) (stored true)).db = some 2 := by
    rw [hdb]
    rfl
  have hslave : ask (lookupSlaveInfo "/a".toList)
      (storedWorld (startedWorld "/a".toList 1) (stored true)).db = some slaveA := by
    rw [hdb]
    rfl
  have htwo : fid = 2 := Option.some.inj (hat.found.symm.trans hfid)
  have hwhere : slave = slaveA := Option.some.inj (hat.recorded.symm.trans hslave)
  have hfile := hat.file
  rw [htwo, hwhere] at hfile
  have hempty : oneDisk.put slaveA 2 (some []) slaveA 2 = some [] := if_pos ⟨rfl, rfl⟩
  rw [hempty] at hfile
  cases hfile

end ClusterFtpd
