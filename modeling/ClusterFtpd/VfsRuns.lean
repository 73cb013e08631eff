import ClusterFtpd.VfsTree

/-!
# Runs of commands over the virtual file system

The state is the database and the pending `szRenameFromPath` of every session.  A step is one
command of one session that runs to its end; a run is any sequence of steps.  It starts from the
database that `InitRedis` writes.

`KeepsTree` is the condition on a step under which it leaves a tree: what is created goes under a
free name of a directory and under a fid that is not in use, what is deleted leaves another field
in the hash of its directory, and what is renamed is not the root and gets a free name or its own.

Main results:

* `KeepsTree.step`: such a step keeps the file system tree-shaped;
* `run_keeps_tree`: so every state of a run of such steps is tree-shaped;
* `run_loses_tree`: two uploads to one path leave a file without a name.
-/

namespace ClusterFtpd

open Interaction MachineInt NameGraph PathComponents

/-- The database that `InitRedis` writes. -/
def initRedis (now : ℤ) : Redis where
  fid_counter := 0
  transaction_counter := 0
  dirent := setEntry (fun _ => ∅) 0 ".foo".toList (-1)
  stat := Function.update (fun _ => .absent) 0
    { st_mode := some 16895, st_size := some 4096, st_uid := some 1, st_gid := some 1
      st_mtime := some (u32 now : ℕ) }
  username := fun login =>
    if login = "admin".toList then
      some { password := "admin".toList, start_directory := "/".toList
             enabled := "true".toList, uid := "1".toList, gid := "1".toList
             max_logins := "0".toList, privileges := "?".toList }
    else none

/-- The state of a run. -/
structure VfsState where
  db : Redis
  szRenameFromPath : ℕ → Text

/-- The start of a run. -/
def VfsState.init (now : ℤ) : VfsState := ⟨initRedis now, fun _ => []⟩

/-- Session `i` runs the command `c` to its end. -/
inductive VfsStep (s : VfsState) (i : ℕ) (c : VfsCmd) : VfsState → Prop where
  | ends {reply szFrom db'} :
      run serveRedis (c.prog (s.szRenameFromPath i)) s.db = .done (reply, szFrom) db' →
      VfsStep s i c ⟨db', Function.update s.szRenameFromPath i szFrom⟩

/-- A run whose steps all satisfy `ok`, a condition on the state before the step. -/
inductive VfsRun (ok : VfsState → ℕ → VfsCmd → Prop) : VfsState → VfsState → Prop where
  | refl (s) : VfsRun ok s s
  | step {s t u i c} : VfsRun ok s t → ok t i c → VfsStep t i c u → VfsRun ok s u

/-! ### The condition -/

/-- A new entry for `path` goes under a free name of a directory, and the next fid is free. -/
def TakesNew (db : Redis) (path : Text) : Prop :=
  ∀ f : ℕ, ask (lookupFid (parentPath path)) db = some (f : ℤ) →
    IsDir (db.stat f) ∧ FreeName db f (entryName path) ∧
      db.stat (u32 ((db.fid_counter + 1 : ℕ) : ℤ)) = .absent ∧
      IsFid (u32 ((db.fid_counter + 1 : ℕ) : ℤ))

/-- The directory of `path` has another field than the one for `path`. -/
def KeepsSibling (db : Redis) (path : Text) : Prop :=
  ∀ f : ℕ, ask (lookupFid (parentPath path)) db = some (f : ℤ) →
    ∃ m, m ≠ entryName path ∧ (db.dirent f).lookup m ≠ none

/-- The condition on a command that gets past its guards. -/
def KeepsTree (db : Redis) (szFrom : Text) : VfsCmd → Prop
  | .mkd path _ _ _ => ∀ p, path.1 = some p → ask (stat p) db = some none → TakesNew db p
  | .store cmd _ path _ _ _ transfer =>
      ∀ p, path.1 = some p → (cmd = .stou → ask (stat p) db = some none) →
        (∃ size slave, transfer ((db.fid_counter + 1 : ℕ) : ℤ) = some (size, slave) ∧ 0 ≤ size) →
        TakesNew db p
  | .dele path =>
      ∀ p st, path.1 = some p → ask (stat p) db = some (some st) → S_ISREG st.st_mode →
        KeepsSibling db p
  | .rmd path =>
      ∀ p, path.1 = some p → ∀ k : ℕ, ask (lookupFid p) db = some (k : ℤ) →
        db.dirent k = ∅ → KeepsSibling db p
  | .rnfr _ => True
  | .rnto path =>
      ∀ p, path.1 = some p → ∀ k f : ℕ, ask (lookupFid szFrom) db = some (k : ℤ) →
        ask (lookupFid (parentPath szFrom)) db = some (f : ℤ) →
        k ≠ 0 ∧ (entryName p ≠ entryName szFrom → FreeName db f (entryName p))

/-! ### Each command -/

variable {db db' : Redis} {p : Text} {names parent : List Text} {entry : Text}

/-- A database with the same hashes is a tree as well. -/
theorem TreeShaped.congr (h : TreeShaped db) (hd : db'.dirent = db.dirent)
    (hs : db'.stat = db.stat) : TreeShaped db' := by
  have he : entries db' = entries db := by
    funext k n
    exact entries_congr_of_lookup (by rw [hd])
  rw [treeShaped_iff] at h ⊢
  rw [he, hd, hs]
  exact h

/-- The entry through which a found path other than the root is found. -/
theorem Addresses.entry_of_found (ha : Addresses p names parent entry) (h : TreeShaped db)
    {k f : ℕ} (hk : namedFid db names = some k) (hk0 : k ≠ 0)
    (hf : namedFid db parent = some f) : entries db f entry = some k := by
  rcases ha.shape with ⟨rfl, -⟩ | ⟨rfl, -, -⟩
  · exact h.entry_of_found hk hf
  · rw [namedFid_nil, Option.some.injEq] at hk
    exact absurd hk.symm hk0

/-- The parts of `TakesNew`, for a parent that is found. -/
theorem TakesNew.of_found (ha : Addresses p names parent entry) (hnew : TakesNew db p) {f : ℕ}
    (hf : namedFid db parent = some f) :
    IsDir (db.stat f) ∧ FreeName db f entry ∧
      db.stat (u32 ((db.fid_counter + 1 : ℕ) : ℤ)) = .absent ∧
      IsFid (u32 ((db.fid_counter + 1 : ℕ) : ℤ)) := by
  have h := hnew f ((ask_lookupFid_natCast ha.lookup_parent).mpr hf)
  rw [ha.entry_eq] at h
  exact h

theorem KeepsSibling.of_found (ha : Addresses p names parent entry) (hsib : KeepsSibling db p)
    {f : ℕ} (hf : namedFid db parent = some f) :
    ∃ m, m ≠ entry ∧ (db.dirent f).lookup m ≠ none := by
  have h := hsib f ((ask_lookupFid_natCast ha.lookup_parent).mpr hf)
  rw [ha.entry_eq] at h
  exact h

theorem isDir_mkdirStat (now : ℤ) (uid gid : ℕ) (h : StatHash) :
    IsDir (mkdirStat h now uid gid) := by
  show S_ISDIR (u32 (int32 16895)) = true
  decide

theorem not_isDir_saveStat (now : ℤ) (r : FileRecord) : ¬ IsDir (saveStat now r) := by
  show ¬ S_ISDIR (u32 (int32 33279)) = true
  decide

theorem saveStat_ne_absent (now : ℤ) (r : FileRecord) : saveStat now r ≠ .absent := by
  intro h
  have hmode := congrArg StatHash.st_mode h
  simp [saveStat, StatHash.absent] at hmode

theorem not_isDir_of_isReg {h : StatHash} (hreg : S_ISREG h.toStat.st_mode) : ¬ IsDir h := by
  intro hd
  have hd' : S_ISDIR h.toStat.st_mode = true := hd
  rw [S_ISREG, beq_iff_eq] at hreg
  rw [S_ISDIR, beq_iff_eq, hreg] at hd'
  exact absurd hd' (by decide)

theorem storeFile_keeps_tree (ha : Addresses p names parent entry) (h : TreeShaped db)
    {cmd : UploadCmd} {newTransaction : Bool} {now : ℤ} {uid gid : ℕ}
    {transfer : ℤ → TransferResult} {r : Option ℤ}
    (hrun : run serveRedis (storeFile cmd newTransaction now p uid gid transfer) db = .done r db')
    (hnew : (cmd = .stou → ask (stat p) db = some none) →
      (∃ size slave, transfer ((db.fid_counter + 1 : ℕ) : ℤ) = some (size, slave) ∧ 0 ≤ size) →
      TakesNew db p) : TreeShaped db' := by
  rcases storeFile_ends ha hrun with ⟨-, hd, hs, -⟩ | ⟨f, size, slave, rfl, hf, ht, hsz, -, hd, hs⟩
  · exact h.congr hd hs
  · have hstou : cmd = .stou → ask (stat p) db = some none := by
      rintro rfl
      exact storeFile_stou_free ha hrun
    obtain ⟨hdir, hfree, habs, hfid⟩ := (hnew hstou ⟨size, slave, ht, hsz⟩).of_found ha hf
    generalize u32 ((db.fid_counter + 1 : ℕ) : ℤ) = j at hd hs habs hfid
    have hfj : f ≠ j := by
      rintro rfl
      exact hdir.ne_absent habs
    have hlook : ∀ i m, (db'.dirent i).lookup m =
        if i = f ∧ m = entry then some (j : ℤ) else (db.dirent i).lookup m := by
      intro i m
      rw [hd]
      exact lookup_setEntry db.dirent f entry j i m
    have hj : db'.dirent j = ∅ := by
      rw [hd, setEntry_of_ne hfj.symm]
      apply h.dirent_eq_empty
      rw [habs]
      exact not_isDir_absent
    refine h.create hdir hfree hfid habs ?_ ?_ ?_ ?_ ?_ ?_
    · intro i hi
      rw [hs, Function.update_of_ne hi]
    · rw [hs, Function.update_self]
      exact saveStat_ne_absent now _
    · intro i m him _
      rw [hlook, if_neg him]
    · rw [hlook, if_pos ⟨rfl, rfl⟩]
    · rw [hj, hs, Function.update_self]
      exact ⟨fun hc => absurd rfl hc, fun hc => absurd hc (not_isDir_saveStat now _)⟩
    · intro m v hv
      rw [hj, Finmap.lookup_empty] at hv
      exact absurd hv (by simp)

theorem mkd_keeps_tree (ha : Addresses p names parent entry) (h : TreeShaped db) {now : ℤ}
    {uid gid : ℕ} {r : Reply} (hrun : run serveRedis (cmdMkd now (some p) uid gid) db = .done r db')
    (hnew : ask (stat p) db = some none → TakesNew db p) : TreeShaped db' := by
  rcases cmdMkd_ends ha hrun with ⟨-, rfl | rfl⟩ | ⟨-, hst, f, hf, rfl⟩
  · exact h
  · exact h.congr rfl rfl
  · obtain ⟨hdir, hfree, habs, hfid⟩ := (hnew hst).of_found ha hf
    have hd := mkdirWrites_dirent db.incrFid now f ((db.fid_counter + 1 : ℕ) : ℤ) uid gid entry
    have hs := mkdirWrites_stat db.incrFid now f ((db.fid_counter + 1 : ℕ) : ℤ) uid gid entry
    rw [u32_of_namedFid hf, Redis.incrFid_dirent] at hd
    rw [Redis.incrFid_stat] at hs
    generalize applyAll (mkdirWrites now f entry uid gid ((db.fid_counter + 1 : ℕ) : ℤ))
      db.incrFid = db₁ at hd hs ⊢
    generalize u32 ((db.fid_counter + 1 : ℕ) : ℤ) = j at hd hs habs hfid
    have hfj : f ≠ j := by
      rintro rfl
      exact hdir.ne_absent habs
    have hold : db.dirent j = ∅ := by
      apply h.dirent_eq_empty
      rw [habs]
      exact not_isDir_absent
    refine h.create hdir hfree hfid habs ?_ ?_ ?_ ?_ ?_ ?_
    · intro i hi
      rw [hs, Function.update_of_ne hi]
    · rw [hs, Function.update_self]
      exact (isDir_mkdirStat now uid gid _).ne_absent
    · intro i m him hij
      rw [hd, setEntry_of_ne hij, lookup_setEntry, if_neg him]
    · rw [hd, setEntry_of_ne hfj, lookup_setEntry, if_pos ⟨rfl, rfl⟩]
    · rw [hs, Function.update_self, hd]
      exact ⟨fun _ => isDir_mkdirStat now uid gid _,
        fun _ => setEntry_ne_empty _ j placeholder (-1)⟩
    · intro m v hv
      rw [hd, lookup_setEntry] at hv
      split_ifs at hv with hm
      · rw [Option.some.injEq] at hv
        exact hv.symm
      · rw [setEntry_of_ne hfj.symm, hold, Finmap.lookup_empty] at hv
        exact absurd hv (by simp)

theorem dele_keeps_tree (ha : Addresses p names parent entry) (h : TreeShaped db) {r : Reply}
    (hrun : run serveRedis (cmdDele (some p)) db = .done r db')
    (hsib : ∀ st, ask (stat p) db = some (some st) → S_ISREG st.st_mode → KeepsSibling db p) :
    TreeShaped db' := by
  rcases cmdDele_ends ha hrun with ⟨-, rfl⟩ | ⟨-, k, f, hk, hs, hreg, hf, rfl⟩
  · exact h
  · have hstat : ask (stat p) db = some (some (db.stat k).toStat) := by
      have hst : statOf db (k : ℤ) = some (db.stat k).toStat := by
        rw [statOf_eq_some, u32_of_namedFid hk]
        exact ⟨by omega, hs, rfl⟩
      rw [ask_stat ha.lookup_names, lookupResult_eq_natCast.mpr hk, Option.map_some, hst]
    have hkdir := not_isDir_of_isReg hreg
    have hk0 : k ≠ 0 := by
      rintro rfl
      exact hkdir h.root_dir
    refine h.delete (ha.entry_of_found h hk hk0 hf) hkdir
      ((hsib _ hstat hreg).of_found ha hf) ?_ ?_
    · rw [removeWrites_dirent, u32_of_namedFid hf]
    · rw [removeWrites_stat, u32_of_namedFid hk]

theorem rmd_keeps_tree (ha : Addresses p names parent entry) (h : TreeShaped db) {r : Reply}
    (hrun : run serveRedis (cmdRmd (some p)) db = .done r db')
    (hsib : ∀ k : ℕ, ask (lookupFid p) db = some (k : ℤ) → db.dirent k = ∅ → KeepsSibling db p) :
    TreeShaped db' := by
  rcases cmdRmd_ends ha hrun with ⟨-, rfl⟩ | ⟨-, k, f, hk, hs, he, hf, rfl⟩
  · exact h
  · have hkdir : ¬ IsDir (db.stat k) := fun hd => (h.dirent_iff k).mpr hd he
    have hk0 : k ≠ 0 := by
      rintro rfl
      exact hkdir h.root_dir
    have hask := (ask_lookupFid_natCast ha.lookup_names).mpr hk
    refine h.delete (ha.entry_of_found h hk hk0 hf) hkdir
      ((hsib k hask he).of_found ha hf) ?_ ?_
    · rw [rmdirWrites_dirent, u32_of_namedFid hf]
    · rw [rmdirWrites_stat, u32_of_namedFid hk]

theorem rnto_keeps_tree {szFrom : Text} (ha : Addresses szFrom names parent entry)
    (h : TreeShaped db) {r : Reply}
    (hrun : run serveRedis (cmdRnto (some p) szFrom) db = .done r db')
    (hok : ∀ k f : ℕ, ask (lookupFid szFrom) db = some (k : ℤ) →
      ask (lookupFid (parentPath szFrom)) db = some (f : ℤ) →
      k ≠ 0 ∧ (entryName p ≠ entryName szFrom → FreeName db f (entryName p))) :
    TreeShaped db' := by
  rcases cmdRnto_ends ha hrun with ⟨-, rfl⟩ | ⟨-, k, f, hk, hf, rfl⟩
  · exact h
  · have hask := (ask_lookupFid_natCast ha.lookup_names).mpr hk
    obtain ⟨hk0, hfree⟩ := hok k f hask ((ask_lookupFid_natCast ha.lookup_parent).mpr hf)
    rw [ha.entry_eq] at hfree
    refine h.relabel (ha.entry_of_found h hk hk0 hf) hfree ?_ ?_
    · rw [renameWrites_dirent, u32_of_namedFid hf, u32_of_namedFid hk]
    · rw [renameWrites_stat]

/-! ### Steps and runs -/

/-- What a pending `szRenameFromPath` is: nothing yet, or a path that was built. -/
def PendingPath (szFrom : Text) : Prop :=
  BarePath szFrom ∨ ∃ names parent entry, Addresses szFrom names parent entry

theorem pendingPath_nil : PendingPath [] := .inl (barePath (by simp) (by simp))

theorem PendingPath.of_built {path : BuiltPath} {p : Text} (h : path.1 = some p) :
    PendingPath p := by
  obtain ⟨start, wd, arg, hb⟩ := path.2
  exact addresses_or_bare (hb.trans h)

theorem run_stat_bare {β : Type} (h : BarePath p) (db : Redis) (f : Option Stat → RedisProg β) :
    run serveRedis (stat p >>= f) db = .stopped .undefinedBehaviour db := by
  rw [run_bind, stat, run_lookup_undefined h.lookup_names]
  rfl

theorem storeThread_bare (h : BarePath p) {newTransaction : Bool} {now : ℤ} {uid gid : ℕ}
    {transfer : ℤ → TransferResult} {r : Option ℤ}
    (hrun : run serveRedis (storeThread newTransaction now p uid gid transfer) db = .done r db') :
    db'.dirent = db.dirent ∧ db'.stat = db.stat ∧ db'.fid_counter = db.fid_counter + 1 := by
  obtain ⟨db₁, hd, hs, hc, heq⟩ := run_storeThread newTransaction now p uid gid transfer db
  rw [heq] at hrun
  cases ht : transfer ((db.fid_counter + 1 : ℕ) : ℤ) with
  | none =>
      rw [ht] at hrun
      simp only [recordFile, Prog.pure_eq, run_ret, Outcome.done.injEq] at hrun
      obtain ⟨-, rfl⟩ := hrun
      exact ⟨hd, hs, hc⟩
  | some res =>
      obtain ⟨size, slave⟩ := res
      rw [ht] at hrun
      by_cases hsize : 0 ≤ size
      · rw [recordFile, if_pos hsize, run_bind_done] at hrun
        obtain ⟨a, u, hsave, -⟩ := hrun
        rw [saveNewFile, run_lookup_undefined h.lookup_parent] at hsave
        exact absurd hsave (by simp)
      · rw [recordFile, if_neg hsize] at hrun
        simp only [Prog.pure_eq, run_ret, Outcome.done.injEq] at hrun
        obtain ⟨-, rfl⟩ := hrun
        exact ⟨hd, hs, hc⟩

/-- No command that starts with `stat` ends on a bare word. -/
theorem bare_not_done {β : Type} (h : BarePath p) {f : Option Stat → RedisProg β} {b : β} :
    run serveRedis (stat p >>= f) db ≠ .done b db' := by
  rw [run_stat_bare h]
  simp

/-- How a command ends: it leaves the hashes as they are, or it has run on a proper path. -/
inductive CmdEnds (db db' : Redis) (szFrom : Text) : VfsCmd → Text → Prop where
  | idle {c szFrom'} :
      db'.dirent = db.dirent → db'.stat = db.stat →
      (db'.fid_counter = db.fid_counter ∨ db'.fid_counter = db.fid_counter + 1) →
      PendingPath szFrom' → CmdEnds db db' szFrom c szFrom'
  | mkd {path uid gid now p names parent entry r} :
      path.1 = some p → Addresses p names parent entry →
      run serveRedis (cmdMkd now (some p) uid gid) db = .done r db' →
      CmdEnds db db' szFrom (.mkd path uid gid now) szFrom
  | rmd {path p names parent entry r} :
      path.1 = some p → Addresses p names parent entry →
      run serveRedis (cmdRmd (some p)) db = .done r db' →
      CmdEnds db db' szFrom (.rmd path) szFrom
  | dele {path p names parent entry r} :
      path.1 = some p → Addresses p names parent entry →
      run serveRedis (cmdDele (some p)) db = .done r db' →
      CmdEnds db db' szFrom (.dele path) szFrom
  | rnto {path p names parent entry r} :
      path.1 = some p → Addresses szFrom names parent entry →
      run serveRedis (cmdRnto (some p) szFrom) db = .done r db' →
      CmdEnds db db' szFrom (.rnto path) []
  | store {cmd newTransaction path uid gid now transfer p names parent entry r} :
      path.1 = some p → Addresses p names parent entry →
      run serveRedis (storeFile cmd newTransaction now p uid gid transfer) db = .done r db' →
      CmdEnds db db' szFrom (.store cmd newTransaction path uid gid now transfer) szFrom

theorem CmdEnds.same {c : VfsCmd} {szFrom szFrom' : Text} (h : PendingPath szFrom') :
    CmdEnds db db szFrom c szFrom' :=
  .idle rfl rfl (.inl rfl) h

/-- **Every command** that ends does so in one of these ways. -/
theorem VfsCmd.ends {c : VfsCmd} {szFrom szFrom' : Text} {reply : Option Reply}
    (hfrom : PendingPath szFrom)
    (hrun : run serveRedis (c.prog szFrom) db = .done (reply, szFrom') db') :
    CmdEnds db db' szFrom c szFrom' := by
  cases c with
  | mkd path uid gid now =>
      obtain ⟨r, u, hcmd, hret⟩ := (run_bind_done serveRedis).mp hrun
      simp only [Prog.pure_eq, run_ret, Outcome.done.injEq, Prod.mk.injEq] at hret
      obtain ⟨⟨-, rfl⟩, rfl⟩ := hret
      cases hp : path.1 with
      | none =>
          rw [hp] at hcmd
          simp only [cmdMkd, run_ret, Outcome.done.injEq] at hcmd
          obtain ⟨-, rfl⟩ := hcmd
          exact .same hfrom
      | some p =>
          rw [hp] at hcmd
          rcases PendingPath.of_built hp with hb | ⟨names, parent, entry, ha⟩
          · exact absurd hcmd (bare_not_done hb)
          · exact .mkd hp ha hcmd
  | rmd path =>
      obtain ⟨r, u, hcmd, hret⟩ := (run_bind_done serveRedis).mp hrun
      simp only [Prog.pure_eq, run_ret, Outcome.done.injEq, Prod.mk.injEq] at hret
      obtain ⟨⟨-, rfl⟩, rfl⟩ := hret
      cases hp : path.1 with
      | none =>
          rw [hp] at hcmd
          simp only [cmdRmd, run_ret, Outcome.done.injEq] at hcmd
          obtain ⟨-, rfl⟩ := hcmd
          exact .same hfrom
      | some p =>
          rw [hp] at hcmd
          rcases PendingPath.of_built hp with hb | ⟨names, parent, entry, ha⟩
          · exact absurd hcmd (bare_not_done hb)
          · exact .rmd hp ha hcmd
  | dele path =>
      obtain ⟨r, u, hcmd, hret⟩ := (run_bind_done serveRedis).mp hrun
      simp only [Prog.pure_eq, run_ret, Outcome.done.injEq, Prod.mk.injEq] at hret
      obtain ⟨⟨-, rfl⟩, rfl⟩ := hret
      cases hp : path.1 with
      | none =>
          rw [hp] at hcmd
          simp only [cmdDele, run_ret, Outcome.done.injEq] at hcmd
          obtain ⟨-, rfl⟩ := hcmd
          exact .same hfrom
      | some p =>
          rw [hp] at hcmd
          rcases PendingPath.of_built hp with hb | ⟨names, parent, entry, ha⟩
          · exact absurd hcmd (bare_not_done hb)
          · exact .dele hp ha hcmd
  | rnfr path =>
      obtain ⟨⟨r, sz⟩, u, hcmd, hret⟩ := (run_bind_done serveRedis).mp hrun
      simp only [Prog.pure_eq, run_ret, Outcome.done.injEq, Prod.mk.injEq] at hret
      obtain ⟨⟨-, rfl⟩, rfl⟩ := hret
      cases hp : path.1 with
      | none =>
          rw [hp] at hcmd
          simp only [cmdRnfr, run_ret, Outcome.done.injEq, Prod.mk.injEq] at hcmd
          obtain ⟨⟨-, rfl⟩, rfl⟩ := hcmd
          exact .same hfrom
      | some p =>
          rw [hp] at hcmd
          rcases PendingPath.of_built hp with hb | ⟨names, parent, entry, ha⟩
          · exact absurd hcmd (bare_not_done hb)
          · rw [run_cmdRnfr ha] at hcmd
            obtain ⟨fid, -, hcmd⟩ := onAnswer_done hcmd
            split_ifs at hcmd with hst
            · simp only [Outcome.done.injEq, Prod.mk.injEq] at hcmd
              obtain ⟨⟨-, rfl⟩, rfl⟩ := hcmd
              exact .idle rfl rfl (.inl rfl) (.inr ⟨_, _, _, ha⟩)
            · simp only [Outcome.done.injEq, Prod.mk.injEq] at hcmd
              obtain ⟨⟨-, rfl⟩, rfl⟩ := hcmd
              exact .same hfrom
  | rnto path =>
      obtain ⟨r, u, hcmd, hret⟩ := (run_bind_done serveRedis).mp hrun
      simp only [Prog.pure_eq, run_ret, Outcome.done.injEq, Prod.mk.injEq] at hret
      obtain ⟨⟨-, rfl⟩, rfl⟩ := hret
      cases hp : path.1 with
      | none =>
          rw [hp] at hcmd
          simp only [cmdRnto, run_ret, Outcome.done.injEq] at hcmd
          obtain ⟨-, rfl⟩ := hcmd
          exact .same pendingPath_nil
      | some p =>
          rw [hp] at hcmd
          rcases hfrom with hb | ⟨names, parent, entry, ha⟩
          · exfalso
            obtain ⟨r', u', hren, -⟩ := (run_bind_done serveRedis).mp hcmd
            rw [rename, run_lookup_undefined hb.lookup_names] at hren
            exact absurd hren (by simp)
          · exact .rnto hp ha hcmd
  | store cmd newTransaction path uid gid now transfer =>
      cases hp : path.1 with
      | none =>
          simp only [VfsCmd.prog, hp, run_ret, Outcome.done.injEq, Prod.mk.injEq] at hrun
          obtain ⟨⟨-, rfl⟩, rfl⟩ := hrun
          exact .same hfrom
      | some p =>
          simp only [VfsCmd.prog, hp] at hrun
          obtain ⟨r, u, hcmd, hret⟩ := (run_bind_done serveRedis).mp hrun
          simp only [Prog.pure_eq, run_ret, Outcome.done.injEq, Prod.mk.injEq] at hret
          obtain ⟨⟨-, rfl⟩, rfl⟩ := hret
          rcases PendingPath.of_built hp with hb | ⟨names, parent, entry, ha⟩
          · cases cmd with
            | stor =>
                obtain ⟨hd, hs, hc⟩ := storeThread_bare hb hcmd
                exact .idle hd hs (.inr hc) hfrom
            | appe => exact absurd hcmd (bare_not_done hb)
            | stou => exact absurd hcmd (bare_not_done hb)
          · exact .store hp ha hcmd

theorem CmdEnds.pending {c : VfsCmd} {szFrom szFrom' : Text} (h : CmdEnds db db' szFrom c szFrom')
    (hfrom : PendingPath szFrom) : PendingPath szFrom' := by
  cases h with
  | idle _ _ _ hnew => exact hnew
  | mkd => exact hfrom
  | rmd => exact hfrom
  | dele => exact hfrom
  | rnto => exact pendingPath_nil
  | store => exact hfrom

/-- **A step** that meets the condition keeps the file system tree-shaped. -/
theorem KeepsTree.step {c : VfsCmd} {szFrom szFrom' : Text} (hok : KeepsTree db szFrom c)
    (h : TreeShaped db) (hends : CmdEnds db db' szFrom c szFrom') : TreeShaped db' := by
  cases hends with
  | idle hd hs _ _ => exact h.congr hd hs
  | mkd hp ha hrun => exact mkd_keeps_tree ha h hrun (hok _ hp)
  | rmd hp ha hrun => exact rmd_keeps_tree ha h hrun (hok _ hp)
  | dele hp ha hrun => exact dele_keeps_tree ha h hrun fun st => hok _ st hp
  | rnto hp ha hrun => exact rnto_keeps_tree ha h hrun (hok _ hp)
  | store hp ha hrun => exact storeFile_keeps_tree ha h hrun (hok _ hp)

/-- The fids in use are those the counter has given out. -/
def FidsAhead (db : Redis) : Prop := ∀ k, db.fid_counter < k → db.stat k = .absent

/-- The next fid is not in use. -/
def NextFidFree (db : Redis) : Prop :=
  db.stat (u32 ((db.fid_counter + 1 : ℕ) : ℤ)) = .absent

instance (db : Redis) : Decidable (NextFidFree db) := inferInstanceAs (Decidable (_ = _))

theorem FidsAhead.nextFidFree (h : FidsAhead db) (hc : db.fid_counter + 1 < 4294967296) :
    NextFidFree db := by
  show db.stat (u32 ((db.fid_counter + 1 : ℕ) : ℤ)) = .absent
  rw [u32_natCast hc]
  exact h _ (by omega)

/-- **A step** keeps the counter ahead of the fids, as long as it does not overflow. -/
theorem FidsAhead.step {c : VfsCmd} {szFrom szFrom' : Text} (h : FidsAhead db)
    (hc : db.fid_counter + 1 < 4294967296) (hends : CmdEnds db db' szFrom c szFrom') :
    FidsAhead db' := by
  have hdel : ∀ k, db'.fid_counter = db.fid_counter →
      db'.stat = Function.update db.stat k .absent → FidsAhead db' := by
    intro k hfid hs i hi
    rw [hs]
    by_cases hik : i = k
    · subst hik
      exact Function.update_self i _ _
    · rw [Function.update_of_ne hik]
      exact h i (by omega)
  have hnew : ∀ v, db'.fid_counter = db.fid_counter + 1 →
      db'.stat = Function.update db.stat (u32 ((db.fid_counter + 1 : ℕ) : ℤ)) v →
      FidsAhead db' := by
    intro v hfid hs i hi
    rw [u32_natCast hc] at hs
    rw [hs, Function.update_of_ne (by omega)]
    exact h i (by omega)
  have hsame : db'.stat = db.stat →
      (db'.fid_counter = db.fid_counter ∨ db'.fid_counter = db.fid_counter + 1) →
      FidsAhead db' := by
    intro hs hfid i hi
    rw [hs]
    exact h i (by omega)
  cases hends with
  | idle _ hs hfid _ => exact hsame hs hfid
  | mkd hp ha hrun =>
      rcases cmdMkd_ends ha hrun with ⟨-, rfl | rfl⟩ | ⟨-, -, f, -, rfl⟩
      · exact h
      · exact hsame rfl (.inr rfl)
      · exact hnew _ (applyAll_fid_counter _ _) (mkdirWrites_stat _ _ _ _ _ _ _)
  | rmd hp ha hrun =>
      rcases cmdRmd_ends ha hrun with ⟨-, rfl⟩ | ⟨-, k, f, -, -, -, -, rfl⟩
      · exact h
      · exact hdel _ (applyAll_fid_counter _ _) (rmdirWrites_stat _ _ _ _)
  | dele hp ha hrun =>
      rcases cmdDele_ends ha hrun with ⟨-, rfl⟩ | ⟨-, k, f, -, -, -, -, rfl⟩
      · exact h
      · exact hdel _ (applyAll_fid_counter _ _) (removeWrites_stat _ _ _ _)
  | rnto hp ha hrun =>
      rcases cmdRnto_ends ha hrun with ⟨-, rfl⟩ | ⟨-, k, f, -, -, rfl⟩
      · exact h
      · exact hsame (renameWrites_stat _ _ _ _ _) (.inl (applyAll_fid_counter _ _))
  | store hp ha hrun =>
      rcases storeFile_ends ha hrun with ⟨-, -, hs, hfid⟩ | ⟨f, size, slave, -, -, -, -, hfid, -, hs⟩
      · exact hsame hs hfid
      · exact hnew _ hfid hs

/-- The name that a command enters into a directory. -/
def VfsCmd.entered : VfsCmd → Option Text
  | .mkd path _ _ _ => path.1.map entryName
  | .rnto path => path.1.map entryName
  | .store _ _ path _ _ _ _ => path.1.map entryName
  | .rmd _ => none
  | .dele _ => none
  | .rnfr _ => none

section Entries

variable {Q : ℕ → Text → ℤ → Prop} {d : ℕ → Dirent}

theorem forall_setEntry (h : ∀ k name v, (d k).lookup name = some v → Q k name v) {f : ℕ}
    {n : Text} {w : ℤ} (hnew : Q f n w) :
    ∀ k name v, (setEntry d f n w k).lookup name = some v → Q k name v := by
  intro k name v hv
  rw [lookup_setEntry] at hv
  by_cases hset : k = f ∧ name = n
  · rw [if_pos hset, Option.some.injEq] at hv
    rw [hset.1, hset.2, ← hv]
    exact hnew
  · rw [if_neg hset] at hv
    exact h k name v hv

theorem forall_dropEntry (h : ∀ k name v, (d k).lookup name = some v → Q k name v) (f : ℕ)
    (n : Text) : ∀ k name v, (dropEntry d f n k).lookup name = some v → Q k name v := by
  intro k name v hv
  rw [lookup_dropEntry] at hv
  by_cases hold : k = f ∧ name = n
  · rw [if_pos hold] at hv
    cases hv
  · rw [if_neg hold] at hv
    exact h k name v hv

/-- **The entries a command leaves** are old ones, or in a directory that is found: one for the next
fid, with a placeholder there, or one for a fid that is found. -/
theorem CmdEnds.entries {c : VfsCmd} {szFrom szFrom' : Text}
    (hends : CmdEnds db db' szFrom c szFrom')
    (h : ∀ k name v, (db.dirent k).lookup name = some v → Q k name v)
    (hnew : ∀ ns f, ∀ name ∈ c.entered, db'.fid_counter = db.fid_counter + 1 →
      namedFid db ns = some f → Q f name (u32 ((db.fid_counter + 1 : ℕ) : ℤ) : ℕ))
    (hplaceholder : db'.fid_counter = db.fid_counter + 1 →
      Q (u32 ((db.fid_counter + 1 : ℕ) : ℤ)) placeholder (-1))
    (hmoved : ∀ ns ms f k, ∀ name ∈ c.entered, namedFid db ns = some f →
      namedFid db ms = some k → Q f name (k : ℕ)) :
    ∀ k name v, (db'.dirent k).lookup name = some v → Q k name v := by
  cases hends with
  | idle hd _ _ _ =>
      rw [hd]
      exact h
  | mkd hp ha hrun =>
      rcases cmdMkd_ends ha hrun with ⟨-, hsame | hsame⟩ | ⟨-, -, f, hf, hmade⟩
      · rw [hsame]
        exact h
      · rw [hsame]
        exact h
      · have hcounter : db'.fid_counter = db.fid_counter + 1 := by
          rw [hmade]
          exact applyAll_fid_counter _ _
        have hentry := hnew _ f (entryName _) (by rw [VfsCmd.entered, hp]; rfl) hcounter hf
        rw [ha.entry_eq] at hentry
        have hu := u32_of_namedFid hf
        rw [hmade, mkdirWrites_dirent, hu]
        exact forall_setEntry (forall_setEntry h hentry) (hplaceholder hcounter)
  | rmd hp ha hrun =>
      rcases cmdRmd_ends ha hrun with ⟨-, hsame⟩ | ⟨-, k, f, -, -, -, -, hgone⟩
      · rw [hsame]
        exact h
      · rw [hgone, rmdirWrites_dirent]
        exact forall_dropEntry h _ _
  | dele hp ha hrun =>
      rcases cmdDele_ends ha hrun with ⟨-, hsame⟩ | ⟨-, k, f, -, -, -, -, hgone⟩
      · rw [hsame]
        exact h
      · rw [hgone, removeWrites_dirent]
        exact forall_dropEntry h _ _
  | rnto hp ha hrun =>
      rcases cmdRnto_ends ha hrun with ⟨-, hsame⟩ | ⟨-, k, f, hk, hf, hmade⟩
      · rw [hsame]
        exact h
      · have hentry := hmoved _ _ f k (entryName _) (by rw [VfsCmd.entered, hp]; rfl) hf hk
        rw [hmade, renameWrites_dirent, u32_of_namedFid hf, u32_of_namedFid hk]
        exact forall_setEntry (forall_dropEntry h _ _) hentry
  | store hp ha hrun =>
      rcases storeFile_ends ha hrun with
        ⟨-, hsame, -, -⟩ | ⟨f, size, slave, -, hf, -, -, hcounter, hmade, -⟩
      · rw [hsame]
        exact h
      · have hentry := hnew _ f (entryName _) (by rw [VfsCmd.entered, hp]; rfl) hcounter hf
        rw [ha.entry_eq] at hentry
        rw [hmade]
        exact forall_setEntry h hentry

end Entries

/-- The database of `InitRedis` is tree-shaped: the root with a placeholder. -/
theorem treeShaped_initRedis (now : ℤ) : TreeShaped (initRedis now) := by
  have hlook : ∀ k m, ((initRedis now).dirent k).lookup m =
      if k = 0 ∧ m = ".foo".toList then some (-1) else none := by
    intro k m
    show (setEntry (fun _ => ∅) 0 ".foo".toList (-1) k).lookup m = _
    rw [lookup_setEntry, Finmap.lookup_empty]
  have hstat : ∀ k, k ≠ 0 → (initRedis now).stat k = .absent := by
    intro k hk
    show Function.update (fun _ => StatHash.absent) 0 _ k = _
    rw [Function.update_of_ne hk]
  have hroot : IsDir ((initRedis now).stat 0) := by
    show S_ISDIR (u32 (int32 16895)) = true
    decide
  have hnone : ∀ k m, entries (initRedis now) k m = none := by
    intro k m
    show (((initRedis now).dirent k).lookup m).bind entryFid = none
    rw [hlook]
    split_ifs <;> rfl
  rw [treeShaped_iff]
  refine ⟨hroot, ?_, ?_, ?_⟩
  · intro k
    by_cases hk : k = 0
    · subst hk
      exact ⟨fun _ => hroot, fun _ => setEntry_ne_empty (fun _ => ∅) 0 ".foo".toList (-1)⟩
    · rw [hstat k hk]
      have hempty : (initRedis now).dirent k = ∅ :=
        setEntry_of_ne (d := fun _ => ∅) hk ".foo".toList (-1)
      exact ⟨fun hc => absurd hempty hc, fun hc => absurd hc not_isDir_absent⟩
  · intro k m v hv
    rw [hlook] at hv
    split_ifs at hv
    rw [Option.some.injEq] at hv
    exact .inl hv.symm
  · refine ⟨?_, ?_, ?_, ?_, hroot.ne_absent, ?_⟩
    · intro a l b hab
      rw [hnone] at hab
      exact absurd hab (by simp)
    · intro a l b hab
      rw [hnone] at hab
      exact absurd hab (by simp)
    · intro a l a' l' b hab
      rw [hnone] at hab
      exact absurd hab (by simp)
    · intro a l hab
      rw [hnone] at hab
      exact absurd hab (by simp)
    · intro b hb
      by_cases hb0 : b = 0
      · subst hb0
        exact ⟨[], rfl⟩
      · exact absurd (hstat b hb0) hb

theorem PendingPath.update {f : ℕ → Text} (hf : ∀ i, PendingPath (f i)) {szFrom : Text}
    (hnew : PendingPath szFrom) (i j : ℕ) : PendingPath (Function.update f j szFrom i) := by
  by_cases hi : i = j
  · subst hi
    rw [Function.update_self]
    exact hnew
  · rw [Function.update_of_ne hi]
    exact hf i

/-- A run from a tree with sound pending paths keeps both. -/
theorem VfsRun.tree {s t : VfsState}
    (hrun : VfsRun (fun s i c => KeepsTree s.db (s.szRenameFromPath i) c) s t)
    (h : TreeShaped s.db) (hfrom : ∀ i, PendingPath (s.szRenameFromPath i)) :
    TreeShaped t.db ∧ ∀ i, PendingPath (t.szRenameFromPath i) := by
  induction hrun with
  | refl => exact ⟨h, hfrom⟩
  | step hrun hok hstep ih =>
      obtain ⟨ht, hpend⟩ := ih
      cases hstep with
      | ends hdone =>
          have hends := VfsCmd.ends (hpend _) hdone
          exact ⟨hok.step ht hends, fun i => PendingPath.update hpend (hends.pending (hpend _)) i _⟩

/-- **Runs.**  Every state of a run from the database of `InitRedis`, in which every step meets
the condition, is tree-shaped. -/
theorem run_keeps_tree {now : ℤ} {t : VfsState}
    (hrun : VfsRun (fun s i c => KeepsTree s.db (s.szRenameFromPath i) c) (.init now) t) :
    TreeShaped t.db :=
  (hrun.tree (treeShaped_initRedis now) fun _ => pendingPath_nil).1

theorem fidsAhead_initRedis (now : ℤ) : FidsAhead (initRedis now) := by
  intro k hk
  have hk0 : k ≠ 0 := by
    rintro rfl
    exact absurd hk (by simp)
  show Function.update (fun _ => StatHash.absent) 0 _ k = _
  rw [Function.update_of_ne hk0]

/-- The counter stays ahead of the fids in every run in which it does not overflow. -/
theorem VfsRun.fidsAhead {now : ℤ} {t : VfsState}
    (hrun : VfsRun (fun s _ _ => s.db.fid_counter + 1 < 4294967296) (.init now) t) :
    FidsAhead t.db ∧ ∀ i, PendingPath (t.szRenameFromPath i) := by
  induction hrun with
  | refl => exact ⟨fidsAhead_initRedis now, fun _ => pendingPath_nil⟩
  | step hrun hok hstep ih =>
      obtain ⟨ht, hpend⟩ := ih
      cases hstep with
      | ends hdone =>
          have hends := VfsCmd.ends (hpend _) hdone
          exact ⟨ht.step hok hends,
            fun i => PendingPath.update hpend (hends.pending (hpend _)) i _⟩

/-- A canonical path as a command of the administrator gets it from `BuildPath`. -/
def BuiltPath.ofCanonical {p : Text} (hp : Canonical p) (hlen : p.length ≤ MAX_PATH) : BuiltPath :=
  ⟨some p, ['/'], ['/'], some p, buildPath_root hp hlen ['/']⟩

theorem canonical_a : Canonical "/a".toList := ⟨[['a']], by decide, rfl⟩

/-- The path `/a`. -/
def pathA : BuiltPath := .ofCanonical canonical_a (by decide)

/-- The first command of a run: `MKD /a`. -/
theorem run_keeps_tree_mkd : ∃ t : VfsState, t.db.stat 1 ≠ .absent ∧ TreeShaped t.db := by
  have hstep : VfsStep (.init 0) 0 (.mkd pathA 1 1 0)
      ⟨applyAll (mkdirWrites 0 0 ['a'] 1 1 1) (initRedis 0).incrFid,
        Function.update (fun _ => []) 0 []⟩ := .ends rfl
  have hok : KeepsTree (initRedis 0) [] (.mkd pathA 1 1 0) := by
    rintro p hp - f hf
    obtain rfl : p = "/a".toList := (Option.some.inj hp).symm
    have hf0 : ask (lookupFid (parentPath "/a".toList)) (initRedis 0) = some 0 := rfl
    rw [hf0, Option.some.injEq] at hf
    obtain rfl : f = 0 := by omega
    exact ⟨by decide, .inl rfl, by decide, by decide⟩
  exact ⟨_, by decide, run_keeps_tree (.step (.refl _) hok hstep)⟩

/-- The commands as they come: after two uploads to `/a` the first file has no name. -/
theorem run_loses_tree : ¬ ∀ t, VfsRun (fun _ _ _ => True) (.init 0) t → TreeShaped t.db := by
  intro hall
  let store : VfsCmd := .store .stor false pathA 1 1 0 fun _ => some (3, {})
  let db₁ := applyAll (saveWrites 0 0 ['a'] ⟨3, 1, 1, 1, {}⟩) (initRedis 0).incrFid
  let db₂ := applyAll (saveWrites 0 0 ['a'] ⟨3, 1, 1, 2, {}⟩) db₁.incrFid
  let pending : ℕ → Text := Function.update (fun _ => []) 0 []
  have hstep₁ : VfsStep (.init 0) 0 store ⟨db₁, pending⟩ := .ends rfl
  have hstep₂ : VfsStep ⟨db₁, pending⟩ 0 store ⟨db₂, Function.update pending 0 []⟩ := .ends rfl
  have htree := hall _ (.step (.step (.refl _) trivial hstep₁) trivial hstep₂)
  obtain ⟨e, he, -⟩ := htree.named_once 1 (by decide) (by decide)
  have hlook : (db₂.dirent e.1).lookup e.2 =
      if e.1 = 0 ∧ e.2 = ['a'] then some 2
      else if e.1 = 0 ∧ e.2 = ['a'] then some 1
      else if e.1 = 0 ∧ e.2 = ".foo".toList then some (-1) else none := by
    show (setEntry (setEntry (setEntry (fun _ => ∅) 0 ".foo".toList (-1)) 0 ['a'] 1) 0 ['a'] 2
      e.1).lookup e.2 = _
    rw [lookup_setEntry, lookup_setEntry, lookup_setEntry, Finmap.lookup_empty]
  have he' : (db₂.dirent e.1).lookup e.2 = some 1 := he
  rw [hlook] at he'
  split_ifs at he' <;> simp at he'

end ClusterFtpd
