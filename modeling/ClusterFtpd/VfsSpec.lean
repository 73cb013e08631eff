import ClusterFtpd.VfsLookup

/-!
# The functions of `redis_vfs`, run alone

One equation for each function: what it answers and which database it leaves, in terms of what the
names of its path and of the parent path lead to.  The lookups of a function are all made before
its transaction, so `lookupResult` is taken in the database before the call.

The second half reads the effect of the transactions off their queued commands: which `dirent` and
`stat` hashes they change.
-/

namespace ClusterFtpd

open Interaction MachineInt NameGraph

/-- Go on with a lookup's answer, over the database `db`. -/
def onAnswer {β : Type} (db : Redis) (fid : Option ℤ) (f : ℤ → Outcome Redis β) :
    Outcome Redis β :=
  match fid with
  | some fid => f fid
  | none => .stopped .loops db

@[simp] theorem onAnswer_some {β : Type} (db : Redis) (fid : ℤ) (f : ℤ → Outcome Redis β) :
    onAnswer db (some fid) f = f fid := rfl

@[simp] theorem onAnswer_none {β : Type} (db : Redis) (f : ℤ → Outcome Redis β) :
    onAnswer db none f = .stopped .loops db := rfl

theorem run_lookup_bind {β : Type} {p : Text} {ns : List Text} (hp : lookupFid p = lookupWalk 0 ns)
    (db : Redis) (f : ℤ → RedisProg β) :
    run serveRedis (lookupFid p >>= f) db =
      onAnswer db (lookupResult db 0 ns) fun fid => run serveRedis (f fid) db := by
  rw [run_bind, hp, run_lookupWalk]
  cases lookupResult db 0 ns <;> rfl

theorem run_lookup_undefined {β : Type} {p : Text} (hp : lookupFid p = .stop .undefinedBehaviour)
    (db : Redis) (f : ℤ → RedisProg β) :
    run serveRedis (lookupFid p >>= f) db = .stopped .undefinedBehaviour db := by
  rw [hp]
  rfl

/-- The database after `INCR fid_counter`. -/
def Redis.incrFid (db : Redis) : Redis := { db with fid_counter := db.fid_counter + 1 }

@[simp] theorem Redis.incrFid_dirent (db : Redis) : db.incrFid.dirent = db.dirent := rfl

@[simp] theorem Redis.incrFid_stat (db : Redis) : db.incrFid.stat = db.stat := rfl

@[simp] theorem Redis.incrFid_fid_counter (db : Redis) :
    db.incrFid.fid_counter = db.fid_counter + 1 := rfl

/-- The result of `stat` for a looked-up fid. -/
def statOf (db : Redis) (fid : ℤ) : Option Stat :=
  if fid < 0 then none
  else if db.stat (u32 fid) = .absent then none
  else some (db.stat (u32 fid)).toStat

variable {p : Text} {names parent : List Text} {entry : Text}

theorem run_stat (hp : lookupFid p = lookupWalk 0 names) (db : Redis) :
    run serveRedis (stat p) db =
      onAnswer db (lookupResult db 0 names) fun fid => .done (statOf db fid) db := by
  rw [stat, run_lookup_bind hp]
  congr 1
  funext fid
  unfold statOf
  by_cases h0 : fid < 0
  · rw [if_pos h0, if_pos h0]
    rfl
  · rw [if_neg h0, if_neg h0]
    show run serveRedis (if db.stat (u32 fid) = .absent then _ else _) db = _
    by_cases h1 : db.stat (u32 fid) = .absent
    · rw [if_pos h1, if_pos h1]
      rfl
    · rw [if_neg h1, if_neg h1]
      rfl

/-- The result of `lookup_slave_info` for a fid. -/
def slaveOf (db : Redis) (fid : ℤ) : SlaveInfo :=
  if db.stat (u32 fid) = .absent then {}
  else
    { host := (db.stat (u32 fid)).slave_host.getD []
      port := some (.ofNat (u32 (atoi (db.stat (u32 fid)).slave_port))) }

theorem run_lookupSlaveInfo (hp : lookupFid p = lookupWalk 0 names) (db : Redis) :
    run serveRedis (lookupSlaveInfo p) db =
      onAnswer db (lookupResult db 0 names) fun fid => .done (slaveOf db fid) db := by
  rw [lookupSlaveInfo, run_lookup_bind hp]
  congr 1
  funext fid
  unfold slaveOf
  show run serveRedis (if db.stat (u32 fid) = .absent then _ else _) db = _
  by_cases h1 : db.stat (u32 fid) = .absent
  · rw [if_pos h1, if_pos h1]
    rfl
  · rw [if_neg h1, if_neg h1]
    rfl

theorem run_mkdir (h : Addresses p names parent entry) (db : Redis) (now : ℤ) (uid gid : ℕ) :
    run serveRedis (mkdir now p uid gid) db =
      onAnswer db.incrFid (lookupResult db 0 parent) fun f =>
        if f < 0 then .done (-1) db.incrFid
        else .done 0 (applyAll
          (mkdirWrites now f entry uid gid ((db.fid_counter + 1 : ℕ) : ℤ)) db.incrFid) := by
  rw [mkdir, getNewFid]
  show run serveRedis (lookupFid (parentPath p) >>= _) db.incrFid = _
  rw [run_lookup_bind h.lookup_parent, lookupResult_congr db.incrFid_dirent]
  congr 1
  funext f
  by_cases h0 : f < 0
  · rw [if_pos h0, if_pos h0]
    rfl
  · rw [if_neg h0, if_neg h0, h.entry_eq]
    rfl

theorem run_rmdir (h : Addresses p names parent entry) (db : Redis) :
    run serveRedis (rmdir p) db =
      onAnswer db (lookupResult db 0 names) fun fid =>
        if fid < 0 then .done (-1) db
        else if db.dirent (u32 fid) = ∅ then
          onAnswer db (lookupResult db 0 parent) fun f =>
            if f < 0 then .done (-1) db
            else .done 0 (applyAll (rmdirWrites f entry fid) db)
        else .done (-1) db := by
  rw [rmdir, run_lookup_bind h.lookup_names]
  congr 1
  funext fid
  by_cases h0 : fid < 0
  · rw [if_pos h0, if_pos h0]
    rfl
  · rw [if_neg h0, if_neg h0]
    show run serveRedis (if (db.dirent (u32 fid)).keys.card = 0 then _ else _) db = _
    by_cases h1 : db.dirent (u32 fid) = ∅
    · rw [if_pos ((Dirent.card_keys_eq_zero _).mpr h1), if_pos h1,
        run_lookup_bind h.lookup_parent]
      congr 1
      funext f
      by_cases h2 : f < 0
      · rw [if_pos h2, if_pos h2]
        rfl
      · rw [if_neg h2, if_neg h2, h.entry_eq]
        rfl
    · rw [if_neg fun h2 => h1 ((Dirent.card_keys_eq_zero _).mp h2), if_neg h1]
      rfl

theorem run_remove (h : Addresses p names parent entry) (db : Redis) :
    run serveRedis (remove p) db =
      onAnswer db (lookupResult db 0 names) fun fid =>
        if fid < 0 then .done (-1) db
        else
          onAnswer db (lookupResult db 0 parent) fun f =>
            if f < 0 then .done (-1) db
            else .done 0 (applyAll (removeWrites f entry fid) db) := by
  rw [remove, run_lookup_bind h.lookup_names]
  congr 1
  funext fid
  by_cases h0 : fid < 0
  · rw [if_pos h0, if_pos h0]
    rfl
  · rw [if_neg h0, if_neg h0, run_lookup_bind h.lookup_parent]
    congr 1
    funext f
    by_cases h2 : f < 0
    · rw [if_pos h2, if_pos h2]
      rfl
    · rw [if_neg h2, if_neg h2, h.entry_eq]
      rfl

theorem run_rename {newpath : Text} {newentry : Text} (h : Addresses p names parent entry)
    (hnew : entryName newpath = newentry) (db : Redis) :
    run serveRedis (rename p newpath) db =
      onAnswer db (lookupResult db 0 names) fun fid =>
        if fid < 0 then .done (-1) db
        else
          onAnswer db (lookupResult db 0 parent) fun f =>
            if f < 0 then .done (-1) db
            else .done 0 (applyAll (renameWrites f entry f newentry fid) db) := by
  rw [rename, run_lookup_bind h.lookup_names]
  congr 1
  funext fid
  by_cases h0 : fid < 0
  · rw [if_pos h0, if_pos h0]
    rfl
  · rw [if_neg h0, if_neg h0, run_lookup_bind h.lookup_parent]
    cases hr : lookupResult db 0 parent with
    | none => rfl
    | some f =>
        rw [onAnswer_some, onAnswer_some]
        by_cases h2 : f < 0
        · rw [if_pos h2, if_pos h2]
          rfl
        · -- the second lookup asks the same question again
          rw [if_neg h2, if_neg h2, run_lookup_bind h.lookup_parent, hr, onAnswer_some,
            if_neg h2, h.entry_eq, hnew]
          rfl

theorem run_saveNewFile (h : Addresses p names parent entry) (db : Redis) (now : ℤ)
    (r : FileRecord) :
    run serveRedis (saveNewFile now p r) db =
      onAnswer db (lookupResult db 0 parent) fun f =>
        if f < 0 then .done (-1) db
        else .done 0 (applyAll (saveWrites now f entry r) db) := by
  rw [saveNewFile, run_lookup_bind h.lookup_parent]
  congr 1
  funext f
  by_cases h0 : f < 0
  · rw [if_pos h0, if_pos h0]
    rfl
  · rw [if_neg h0, if_neg h0, h.entry_eq]
    rfl

/-! ### The effect of the transactions -/

variable (db : Redis) (now f fid : ℤ) (uid gid : ℕ)

/-- The `dirent` hashes with one entry set. -/
def setEntry (d : ℕ → Dirent) (k : ℕ) (n : Text) (v : ℤ) : ℕ → Dirent :=
  Function.update d k ((d k).insert n v)

/-- The `dirent` hashes with one entry gone. -/
def dropEntry (d : ℕ → Dirent) (k : ℕ) (n : Text) : ℕ → Dirent :=
  Function.update d k ((d k).erase n)

theorem lookup_setEntry (d : ℕ → Dirent) (k : ℕ) (n : Text) (v : ℤ) (k' : ℕ) (n' : Text) :
    (setEntry d k n v k').lookup n' =
      if k' = k ∧ n' = n then some v else (d k').lookup n' := by
  unfold setEntry
  by_cases hk : k' = k
  · subst hk
    rw [Function.update_self]
    by_cases hn : n' = n
    · subst hn
      rw [if_pos ⟨rfl, rfl⟩, Finmap.lookup_insert]
    · rw [if_neg fun h => hn h.2, Finmap.lookup_insert_of_ne _ hn]
  · rw [Function.update_of_ne hk, if_neg fun h => hk h.1]

theorem lookup_dropEntry (d : ℕ → Dirent) (k : ℕ) (n : Text) (k' : ℕ) (n' : Text) :
    (dropEntry d k n k').lookup n' =
      if k' = k ∧ n' = n then none else (d k').lookup n' := by
  unfold dropEntry
  by_cases hk : k' = k
  · subst hk
    rw [Function.update_self]
    by_cases hn : n' = n
    · subst hn
      rw [if_pos ⟨rfl, rfl⟩, Finmap.lookup_erase]
    · rw [if_neg fun h => hn h.2, Finmap.lookup_erase_ne hn]
  · rw [Function.update_of_ne hk, if_neg fun h => hk h.1]

theorem setEntry_of_ne {d : ℕ → Dirent} {k k' : ℕ} (h : k' ≠ k) (n : Text) (v : ℤ) :
    setEntry d k n v k' = d k' := Function.update_of_ne h _ _

theorem dropEntry_of_ne {d : ℕ → Dirent} {k k' : ℕ} (h : k' ≠ k) (n : Text) :
    dropEntry d k n k' = d k' := Function.update_of_ne h _ _

theorem setEntry_ne_empty (d : ℕ → Dirent) (k : ℕ) (n : Text) (v : ℤ) : setEntry d k n v k ≠ ∅ := by
  unfold setEntry
  rw [Function.update_self]
  exact Dirent.insert_ne_empty (d k) n v

/-- The fields `mkdir` writes. -/
def mkdirStat (h : StatHash) (now : ℤ) (uid gid : ℕ) : StatHash :=
  { h with
    st_size := some 4096, st_mode := some 16895, st_uid := some (u32 uid : ℕ)
    st_gid := some (u32 gid : ℕ), st_mtime := some (u32 now : ℕ) }

/-- The fields `save_new_file` writes. -/
def saveStat (now : ℤ) (r : FileRecord) : StatHash where
  st_mode := some 33279
  st_size := some (u32 r.size : ℕ)
  st_uid := some (u32 r.uid : ℕ)
  st_gid := some (u32 r.gid : ℕ)
  st_mtime := some (u32 now : ℕ)
  slave_host := some r.slave.host
  slave_port := some ((r.slave.port.getD 0).toNat : ℕ)

theorem mkdirWrites_dirent (entry : Text) :
    (applyAll (mkdirWrites now f entry uid gid fid) db).dirent =
      setEntry (setEntry db.dirent (u32 f) entry (u32 fid : ℕ)) (u32 fid) placeholder (-1) := rfl

theorem mkdirWrites_stat (entry : Text) :
    (applyAll (mkdirWrites now f entry uid gid fid) db).stat =
      Function.update db.stat (u32 fid) (mkdirStat (db.stat (u32 fid)) now uid gid) := by
  simp [mkdirWrites, Write.apply, StatHash.hset, mkdirStat, Function.update_idem]

theorem rmdirWrites_dirent (entry : Text) :
    (applyAll (rmdirWrites f entry fid) db).dirent = dropEntry db.dirent (u32 f) entry := rfl

theorem rmdirWrites_stat (entry : Text) :
    (applyAll (rmdirWrites f entry fid) db).stat =
      Function.update db.stat (u32 fid) .absent := rfl

theorem removeWrites_dirent (entry : Text) :
    (applyAll (removeWrites f entry fid) db).dirent = dropEntry db.dirent (u32 f) entry := rfl

theorem removeWrites_stat (entry : Text) :
    (applyAll (removeWrites f entry fid) db).stat =
      Function.update db.stat (u32 fid) .absent := rfl

theorem renameWrites_dirent (oldentry newentry : Text) :
    (applyAll (renameWrites f oldentry f newentry fid) db).dirent =
      setEntry (dropEntry db.dirent (u32 f) oldentry) (u32 f) newentry (u32 fid : ℕ) := rfl

theorem renameWrites_stat (oldentry newentry : Text) :
    (applyAll (renameWrites f oldentry f newentry fid) db).stat = db.stat := rfl

theorem saveWrites_dirent (entry : Text) (r : FileRecord) :
    (applyAll (saveWrites now f entry r) db).dirent =
      setEntry db.dirent (u32 f) entry (u32 r.fid : ℕ) := rfl

theorem saveWrites_stat (entry : Text) (r : FileRecord) :
    (applyAll (saveWrites now f entry r) db).stat =
      Function.update db.stat (u32 r.fid) (saveStat now r) := by
  simp [saveWrites, Write.apply, StatHash.hset, saveStat, Function.update_idem]

end ClusterFtpd
