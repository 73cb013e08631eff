import ClusterFtpd.VfsRecords

/-!
# Fids are drawn once

`get_new_fid` counts upwards.  `FidsDrawn` says that every entry holds a placeholder or a fid that
the counter has given out, in a directory whose fid it has given out.  Every run of commands keeps
this, whatever the commands are, as long as the counter fits 32 bits (`VfsRun.fidsDrawn`).

So the next fid is found under no path, and after a file is stored under it, the path of the file
finds it exactly when the way to the directory does not take the entry of the file itself
(`FidsDrawn.lookup_saved_iff`).  Only a cycle of directories has such ways.
-/

namespace ClusterFtpd

open Interaction MachineInt NameGraph

/-- Every entry is in a directory with a drawn fid, and holds a placeholder or a drawn fid. -/
def FidsDrawn (db : Redis) : Prop :=
  ∀ k name v, (db.dirent k).lookup name = some v →
    k ≤ db.fid_counter ∧ (v = -1 ∨ ∃ j : ℕ, j ≤ db.fid_counter ∧ v = j)

variable {db db' : Redis} {ns parent : List Text} {entry : Text} {f j k : ℕ}

/-- A database with the same entries, and a counter that is not lower. -/
theorem FidsDrawn.congr (h : FidsDrawn db) (hd : db'.dirent = db.dirent)
    (hcounter : db.fid_counter ≤ db'.fid_counter) : FidsDrawn db' := by
  intro k name v hv
  rw [hd] at hv
  obtain ⟨hk, hfid⟩ := h k name v hv
  refine ⟨hk.trans hcounter, ?_⟩
  rcases hfid with hplaceholder | ⟨j, hj, hvj⟩
  · exact .inl hplaceholder
  · exact .inr ⟨j, hj.trans hcounter, hvj⟩

theorem fidsDrawn_initRedis (now : ℤ) : FidsDrawn (initRedis now) := by
  intro k name v hv
  have hentry : (setEntry (fun _ => ∅) 0 ".foo".toList (-1) k).lookup name = some v := hv
  rw [lookup_setEntry] at hentry
  by_cases hroot : k = 0 ∧ name = ".foo".toList
  · rw [if_pos hroot, Option.some.injEq] at hentry
    rw [hroot.1]
    exact ⟨Nat.zero_le _, .inl hentry.symm⟩
  · rw [if_neg hroot, Finmap.lookup_empty] at hentry
    cases hentry

/-! ### What is found -/

/-- A walk arrives at a drawn fid, or at what a placeholder is formatted to. -/
theorem FidsDrawn.walk_le (h : FidsDrawn db) (hcounter : db.fid_counter < 4294967296)
    (hwalk : walk (child db) k ns = some j) (hk : k ≤ db.fid_counter ∨ k = 4294967295) :
    j ≤ db.fid_counter ∨ j = 4294967295 := by
  induction ns generalizing k with
  | nil =>
      rw [walk_nil, Option.some.injEq] at hwalk
      rw [← hwalk]
      exact hk
  | cons n ns ih =>
      rw [walk_cons, Option.bind_eq_some_iff] at hwalk
      obtain ⟨i, hi, hrest⟩ := hwalk
      apply ih hrest
      have hentry : ((db.dirent k).lookup n).map u32 = some i := hi
      rw [Option.map_eq_some_iff] at hentry
      obtain ⟨v, hv, hvi⟩ := hentry
      obtain ⟨-, hplaceholder | ⟨m, hm, hvm⟩⟩ := h k n v hv
      · right
        rw [← hvi, hplaceholder]
        rfl
      · left
        rw [← hvi, hvm, u32_natCast (by omega)]
        exact hm

theorem FidsDrawn.found_le (h : FidsDrawn db) (hcounter : db.fid_counter < 4294967296)
    (hfound : namedFid db ns = some k) : k ≤ db.fid_counter := by
  obtain ⟨hwalk, hlt⟩ := namedFid_eq_some.mp hfound
  rcases h.walk_le hcounter hwalk (.inl (Nat.zero_le _)) with hle | hplaceholder
  · exact hle
  · omega

/-- The next fid is found nowhere. -/
theorem FidsDrawn.lookup_ne_next (h : FidsDrawn db) (hcounter : db.fid_counter < 4294967296)
    (ns : List Text) : lookupResult db 0 ns ≠ some ((db.fid_counter + 1 : ℕ) : ℤ) := by
  intro hlookup
  have hle := h.found_le hcounter (lookupResult_eq_natCast.mp hlookup)
  omega

/-- There is nothing under a fid that is not drawn. -/
theorem FidsDrawn.dirent_empty (h : FidsDrawn db) (hk : db.fid_counter < k) : db.dirent k = ∅ := by
  by_contra hne
  obtain ⟨name, v, hv⟩ := Dirent.exists_lookup_of_ne_empty hne
  have hle := (h k name v hv).1
  omega

/-- Where a path is found, so is the directory it is in. -/
theorem FidsDrawn.parent_found (h : FidsDrawn db) (hcounter : db.fid_counter < 2147483648)
    (hfound : namedFid db (parent ++ [entry]) = some k) : ∃ f, namedFid db parent = some f := by
  obtain ⟨f, hwalk, hentry⟩ := walk_concat_eq_some.mp (namedFid_eq_some.mp hfound).1
  have hv : ((db.dirent f).lookup entry).map u32 = some k := hentry
  rw [Option.map_eq_some_iff] at hv
  obtain ⟨v, hv, -⟩ := hv
  have hle := (h f entry v hv).1
  exact ⟨f, namedFid_eq_some.mpr ⟨hwalk, by omega⟩⟩

/-! ### Runs -/

theorem CmdEnds.fid_counter_le {c : VfsCmd} {szFrom szFrom' : Text}
    (hends : CmdEnds db db' szFrom c szFrom') : db.fid_counter ≤ db'.fid_counter := by
  cases hends with
  | idle _ _ hcounter _ => omega
  | mkd hp ha hrun =>
      rcases cmdMkd_ends ha hrun with ⟨-, hsame | hsame⟩ | ⟨-, -, f, -, hmade⟩
      · rw [hsame]
      · rw [hsame, Redis.incrFid_fid_counter]
        omega
      · rw [hmade, applyAll_fid_counter, Redis.incrFid_fid_counter]
        omega
  | rmd hp ha hrun =>
      rcases cmdRmd_ends ha hrun with ⟨-, hsame⟩ | ⟨-, k, f, -, -, -, -, hgone⟩
      · rw [hsame]
      · rw [hgone, applyAll_fid_counter]
  | dele hp ha hrun =>
      rcases cmdDele_ends ha hrun with ⟨-, hsame⟩ | ⟨-, k, f, -, -, -, -, hgone⟩
      · rw [hsame]
      · rw [hgone, applyAll_fid_counter]
  | rnto hp ha hrun =>
      rcases cmdRnto_ends ha hrun with ⟨-, hsame⟩ | ⟨-, k, f, -, -, hmade⟩
      · rw [hsame]
      · rw [hmade, applyAll_fid_counter]
  | store hp ha hrun =>
      rcases storeFile_ends ha hrun with
        ⟨-, -, -, hcounter⟩ | ⟨f, size, slave, -, -, -, -, hcounter, -, -⟩
      · omega
      · omega

/-- **A step** enters drawn fids only, as long as the counter does not overflow. -/
theorem FidsDrawn.step {c : VfsCmd} {szFrom szFrom' : Text} (h : FidsDrawn db)
    (hcounter : db.fid_counter + 1 < 4294967296) (hends : CmdEnds db db' szFrom c szFrom') :
    FidsDrawn db' := by
  have hle := hends.fid_counter_le
  have hnext : u32 ((db.fid_counter + 1 : ℕ) : ℤ) = db.fid_counter + 1 := u32_natCast hcounter
  have hfound : ∀ {ns k}, namedFid db ns = some k → k ≤ db'.fid_counter :=
    fun hk => (h.found_le (by omega) hk).trans hle
  apply hends.entries (Q := fun k _ v =>
    k ≤ db'.fid_counter ∧ (v = -1 ∨ ∃ j : ℕ, j ≤ db'.fid_counter ∧ v = j))
  · intro k name v hv
    have hdrawn : FidsDrawn { db with fid_counter := db'.fid_counter } := h.congr rfl hle
    exact hdrawn k name v hv
  · intro ns f name _ hdrawn hf
    refine ⟨hfound hf, .inr ⟨db.fid_counter + 1, by omega, ?_⟩⟩
    rw [hnext]
  · intro hdrawn
    refine ⟨?_, .inl rfl⟩
    rw [hnext]
    omega
  · intro ns ms f k name _ hf hk
    exact ⟨hfound hf, .inr ⟨k, hfound hk, rfl⟩⟩

/-- **Runs.**  In every run in which the counter fits 32 bits, the entries hold drawn fids. -/
theorem VfsRun.fidsDrawn {now : ℤ} {t : VfsState}
    (hrun : VfsRun (fun s _ _ => s.db.fid_counter + 1 < 4294967296) (.init now) t) :
    FidsDrawn t.db := by
  have hboth : FidsDrawn t.db ∧ ∀ i, PendingPath (t.szRenameFromPath i) := by
    induction hrun with
    | refl => exact ⟨fidsDrawn_initRedis now, fun _ => pendingPath_nil⟩
    | step hrun hok hstep ih =>
        obtain ⟨ht, hpend⟩ := ih
        cases hstep with
        | ends hdone =>
            have hends := VfsCmd.ends (hpend _) hdone
            exact ⟨ht.step hok hends,
              fun i => PendingPath.update hpend (hends.pending (hpend _)) i _⟩
  exact hboth.1

/-! ### The path of a stored file -/

/-- A way that takes the entry comes to the stored file, and there is nothing under it. -/
theorem FidsDrawn.lost_of_uses (h : FidsDrawn db) (hcounter : db.fid_counter + 1 < 4294967296)
    (hf : namedFid db parent = some f)
    (hd : db'.dirent = setEntry db.dirent f entry ((db.fid_counter + 1 : ℕ) : ℤ))
    (huses : Uses (child db) 0 parent f entry) : namedFid db' (parent ++ [entry]) = none := by
  have hu : u32 ((db.fid_counter + 1 : ℕ) : ℤ) = db.fid_counter + 1 := u32_natCast hcounter
  obtain ⟨xs, ys, hparent, hxs, hfirst⟩ := huses.first
  have hoff : AgreeOff (child db) (child db') f entry := by
    intro a m hne
    show ((db'.dirent a).lookup m).map u32 = ((db.dirent a).lookup m).map u32
    rw [hd, lookup_setEntry, if_neg hne]
  have hentry : child db' f entry = some (db.fid_counter + 1) := by
    show ((db'.dirent f).lookup entry).map u32 = _
    rw [hd, lookup_setEntry, if_pos ⟨rfl, rfl⟩, Option.map_some, hu]
  have hempty : db'.dirent (db.fid_counter + 1) = ∅ := by
    have hle := h.found_le (by omega) hf
    rw [hd, setEntry_of_ne (by omega)]
    exact h.dirent_empty (by omega)
  have hwalk : walk (child db') 0 (parent ++ [entry]) = none := by
    rw [hparent, List.append_assoc, walk_append, walk_eq_of_not_uses hoff xs 0 hfirst, hxs,
      Option.bind_some, List.cons_append, walk_cons, hentry, Option.bind_some]
    cases ys with
    | nil =>
        rw [List.nil_append, walk_cons, child_eq_none_of_empty hempty]
        rfl
    | cons y ys =>
        rw [List.cons_append, walk_cons, child_eq_none_of_empty hempty]
        rfl
  unfold namedFid
  rw [hwalk]
  rfl

/-- **After a file is stored** under the next fid, its path finds it exactly when the way to its
directory does not take its own entry. -/
theorem FidsDrawn.lookup_saved_iff (h : FidsDrawn db) (hcounter : db.fid_counter + 1 < 2147483648)
    (hf : namedFid db parent = some f)
    (hd : db'.dirent = setEntry db.dirent f entry ((db.fid_counter + 1 : ℕ) : ℤ)) :
    lookupResult db' 0 (parent ++ [entry]) = some ((db.fid_counter + 1 : ℕ) : ℤ) ↔
      ¬ Uses (child db) 0 parent f entry := by
  constructor
  · intro hlookup huses
    have hlost := h.lost_of_uses (by omega) hf hd huses
    rw [lookupResult_eq_natCast.mp hlookup] at hlost
    cases hlost
  · intro hway
    exact lookup_saved hf hway hd hcounter

end ClusterFtpd
