import ClusterFtpd.VfsSpec

/-!
# The commands that change the virtual file system

The branches of the command shell for `DELE`, `RNFR`, `RNTO`, `MKD` and `RMD` from the result of
`BuildPath` on: the guards of the shell, the call of `redis_vfs` and the reply.  `storeFile` is what
an upload does to the database: the guards of `STOR`, `APPE` and `STOU`, then `storeThread`.

`VfsCmd` is one command of a session with all its arguments, and `VfsCmd.prog` the program it runs,
with `szRenameFromPath` as it is before and after.
-/

namespace ClusterFtpd

open Interaction MachineInt NameGraph

/-- A reply to the client: a line with a code, several lines of which the first has a dash behind
the code, or the empty line of an empty message. -/
inductive Reply where
  | line (code : ℕ) (text : String)
  | multiline (code : ℕ) (text : String)
  | empty
  deriving DecidableEq

/-- The code of a reply. -/
def Reply.code : Reply → Option ℕ
  | .line code _ => some code
  | .multiline code _ => some code
  | .empty => none

/-- `DELE`. -/
def cmdDele (pszPath : Option Text) : RedisProg Reply :=
  match pszPath with
  | none => .ret (.line 550 "No such file.")
  | some path => do
      let st ← stat path
      match st with
      | some st =>
          if S_ISREG st.st_mode then do
            let r ← remove path
            if r ≠ -1 then return .line 250 "DELE command successful."
            else return .line 550 "Can' t Remove or Access Error."
          else return .line 550 "No such file."
      | none => return .line 550 "No such file."

/-- `RNFR`, with the new `szRenameFromPath`. -/
def cmdRnfr (pszPath : Option Text) (szRenameFromPath : Text) : RedisProg (Reply × Text) :=
  match pszPath with
  | none => .ret (.line 550 "No such file or directory.", szRenameFromPath)
  | some path => do
      let st ← stat path
      if st.isSome then
        return (.line 350 "File or directory exists, ready for destination name.", path)
      else return (.line 550 "No such file or directory.", szRenameFromPath)

/-- `RNTO`; the caller then empties `szRenameFromPath`. -/
def cmdRnto (pszPath : Option Text) (szRenameFromPath : Text) : RedisProg Reply :=
  match pszPath with
  | none => .ret (.line 550 "Rename failure.")
  | some path => do
      let r ← rename szRenameFromPath path
      if r = 0 then return .line 250 "Rename successful."
      else return .line 550 "Rename failure."

/-- `MKD` and `XMKD`. -/
def cmdMkd (now : ℤ) (pszPath : Option Text) (uid gid : ℕ) : RedisProg Reply :=
  match pszPath with
  | none => .ret (.line 550 "File Already Exists.")
  | some path => do
      let st ← stat path
      if st.isSome then return .line 550 "File Already Exists."
      else do
        let r ← mkdir now path uid gid
        if r < 0 then return .line 550 "MKD Error Creating DIR."
        else return .line 250 "MKD command successful."

/-- `RMD` and `XRMD`. -/
def cmdRmd (pszPath : Option Text) : RedisProg Reply :=
  match pszPath with
  | none => .ret (.line 550 "Directory not found.")
  | some path => do
      let st ← stat path
      if st.isSome then do
        let r ← rmdir path
        if r < 0 then return .line 450 "Internal error deleting the directory."
        else return .line 250 "Directory deleted successfully."
      else return .line 550 "Directory not found."

/-- The three upload commands. -/
inductive UploadCmd where
  | stor
  | appe
  | stou
  deriving DecidableEq

/-- What the slave makes of an upload: the size and the slave to record, or no record at all. -/
abbrev TransferResult := Option (ℤ × SlaveInfo)

/-- The end of the transfer thread: a size that is not negative is recorded.  The answer of
`save_new_file` is in the result; the source drops it. -/
def recordFile (now : ℤ) (path : Text) (uid gid : ℕ) (fid : ℤ) : TransferResult → RedisProg (Option ℤ)
  | some (size, slave) =>
      if 0 ≤ size then do
        let r ← saveNewFile now path { size, uid, gid, fid, slave }
        return some r
      else return none
  | none => return none

/-- What the transfer thread does to the database: a new fid, in active mode a transaction number,
and the record of the file. -/
def storeThread (newTransaction : Bool) (now : ℤ) (path : Text) (uid gid : ℕ)
    (transfer : ℤ → TransferResult) : RedisProg (Option ℤ) := do
  let fid ← getNewFid
  let _ ← if newTransaction then getNewTransactionId else pure 0
  recordFile now path uid gid fid (transfer fid)

/-- What an upload to `path` does to the database.  `APPE` and `STOU` look at the path first, and
`STOU` goes no further when it is taken. -/
def storeFile (cmd : UploadCmd) (newTransaction : Bool) (now : ℤ) (path : Text) (uid gid : ℕ)
    (transfer : ℤ → TransferResult) : RedisProg (Option ℤ) :=
  match cmd with
  | .stor => storeThread newTransaction now path uid gid transfer
  | .appe => do
      let _ ← stat path
      storeThread newTransaction now path uid gid transfer
  | .stou => do
      let st ← stat path
      if st.isSome then return none else storeThread newTransaction now path uid gid transfer

/-! ### Sessions -/

/-- What `BuildPath` can answer a command. -/
abbrev BuiltPath := { r : Option Text // ∃ start wd arg, buildPath start wd arg = r }

/-- A command of a session that can change the virtual file system. -/
inductive VfsCmd where
  | mkd (path : BuiltPath) (uid gid : ℕ) (now : ℤ)
  | rmd (path : BuiltPath)
  | dele (path : BuiltPath)
  | rnfr (path : BuiltPath)
  | rnto (path : BuiltPath)
  | store (cmd : UploadCmd) (newTransaction : Bool) (path : BuiltPath) (uid gid : ℕ) (now : ℤ)
      (transfer : ℤ → TransferResult)

/-- The program of a command: from `szRenameFromPath`, its reply (an upload's comes from the
slave) and the new `szRenameFromPath`. -/
def VfsCmd.prog : VfsCmd → Text → RedisProg (Option Reply × Text)
  | .mkd path uid gid now, szFrom => do return (some (← cmdMkd now path.1 uid gid), szFrom)
  | .rmd path, szFrom => do return (some (← cmdRmd path.1), szFrom)
  | .dele path, szFrom => do return (some (← cmdDele path.1), szFrom)
  | .rnfr path, szFrom => do
      let (reply, szFrom) ← cmdRnfr path.1 szFrom
      return (some reply, szFrom)
  | .rnto path, szFrom => do return (some (← cmdRnto path.1 szFrom), [])
  | .store cmd newTransaction path uid gid now transfer, szFrom =>
      match path.1 with
      | none => .ret (none, szFrom)
      | some path => do
          let _ ← storeFile cmd newTransaction now path uid gid transfer
          return (none, szFrom)

/-! ### The commands, run alone -/

variable {p : Text} {names parent : List Text} {entry : Text}

theorem statOf_eq_some {db : Redis} {fid : ℤ} {st : Stat} :
    statOf db fid = some st ↔
      0 ≤ fid ∧ db.stat (u32 fid) ≠ .absent ∧ st = (db.stat (u32 fid)).toStat := by
  unfold statOf
  by_cases h0 : fid < 0
  · rw [if_pos h0]
    constructor
    · intro h
      exact absurd h (by simp)
    · rintro ⟨h, -⟩
      omega
  · rw [if_neg h0]
    by_cases h1 : db.stat (u32 fid) = .absent
    · rw [if_pos h1]
      simp [h1]
    · rw [if_neg h1, Option.some.injEq]
      constructor
      · rintro rfl
        exact ⟨by omega, h1, rfl⟩
      · rintro ⟨-, -, rfl⟩
        rfl

theorem run_stat_bind {β : Type} (h : Addresses p names parent entry) (db : Redis)
    (f : Option Stat → RedisProg β) :
    run serveRedis (stat p >>= f) db =
      onAnswer db (lookupResult db 0 names) fun fid => run serveRedis (f (statOf db fid)) db := by
  rw [run_bind, run_stat h.lookup_names]
  cases lookupResult db 0 names <;> rfl

theorem run_cmdDele (h : Addresses p names parent entry) (db : Redis) :
    run serveRedis (cmdDele (some p)) db =
      onAnswer db (lookupResult db 0 names) fun fid =>
        match statOf db fid with
        | some st =>
            if S_ISREG st.st_mode then
              onAnswer db (lookupResult db 0 parent) fun f =>
                if f < 0 then .done (.line 550 "Can' t Remove or Access Error.") db
                else .done (.line 250 "DELE command successful.")
                  (applyAll (removeWrites f entry fid) db)
            else .done (.line 550 "No such file.") db
        | none => .done (.line 550 "No such file.") db := by
  show run serveRedis (stat p >>= _) db = _
  rw [run_stat_bind h]
  cases hr : lookupResult db 0 names with
  | none => rfl
  | some fid =>
      rw [onAnswer_some, onAnswer_some]
      cases hst : statOf db fid with
      | none => rfl
      | some st =>
          have h0 : ¬ fid < 0 := by
            have := (statOf_eq_some.mp hst).1
            omega
          by_cases hreg : S_ISREG st.st_mode
          · simp only [hreg, if_true]
            rw [run_bind, run_remove h, hr, onAnswer_some, if_neg h0]
            cases lookupResult db 0 parent with
            | none => rfl
            | some f =>
                rw [onAnswer_some, onAnswer_some]
                by_cases h1 : f < 0
                · rw [if_pos h1, if_pos h1]
                  rfl
                · rw [if_neg h1, if_neg h1]
                  rfl
          · simp only [hreg]
            rfl

theorem run_cmdRnfr (h : Addresses p names parent entry) (szFrom : Text) (db : Redis) :
    run serveRedis (cmdRnfr (some p) szFrom) db =
      onAnswer db (lookupResult db 0 names) fun fid =>
        if (statOf db fid).isSome then
          .done (.line 350 "File or directory exists, ready for destination name.", p) db
        else .done (.line 550 "No such file or directory.", szFrom) db := by
  show run serveRedis (stat p >>= _) db = _
  rw [run_stat_bind h]
  congr 1
  funext fid
  by_cases hst : (statOf db fid).isSome
  · rw [if_pos hst, if_pos hst]
    rfl
  · rw [if_neg hst, if_neg hst]
    rfl

theorem run_cmdRnto {szFrom : Text} (h : Addresses szFrom names parent entry) (p : Text)
    (db : Redis) :
    run serveRedis (cmdRnto (some p) szFrom) db =
      onAnswer db (lookupResult db 0 names) fun fid =>
        if fid < 0 then .done (.line 550 "Rename failure.") db
        else
          onAnswer db (lookupResult db 0 parent) fun f =>
            if f < 0 then .done (.line 550 "Rename failure.") db
            else .done (.line 250 "Rename successful.")
              (applyAll (renameWrites f entry f (entryName p) fid) db) := by
  show run serveRedis (rename szFrom p >>= _) db = _
  rw [run_bind, run_rename h rfl]
  cases lookupResult db 0 names with
  | none => rfl
  | some fid =>
      rw [onAnswer_some, onAnswer_some]
      by_cases h0 : fid < 0
      · rw [if_pos h0, if_pos h0]
        rfl
      · rw [if_neg h0, if_neg h0]
        cases lookupResult db 0 parent with
        | none => rfl
        | some f =>
            rw [onAnswer_some, onAnswer_some]
            by_cases h1 : f < 0
            · rw [if_pos h1, if_pos h1]
              rfl
            · rw [if_neg h1, if_neg h1]
              rfl

theorem run_cmdMkd (h : Addresses p names parent entry) (now : ℤ) (uid gid : ℕ) (db : Redis) :
    run serveRedis (cmdMkd now (some p) uid gid) db =
      onAnswer db (lookupResult db 0 names) fun fid =>
        if (statOf db fid).isSome then .done (.line 550 "File Already Exists.") db
        else
          onAnswer db.incrFid (lookupResult db 0 parent) fun f =>
            if f < 0 then .done (.line 550 "MKD Error Creating DIR.") db.incrFid
            else .done (.line 250 "MKD command successful.")
              (applyAll (mkdirWrites now f entry uid gid ((db.fid_counter + 1 : ℕ) : ℤ))
                db.incrFid) := by
  show run serveRedis (stat p >>= _) db = _
  rw [run_stat_bind h]
  congr 1
  funext fid
  by_cases hst : (statOf db fid).isSome
  · rw [if_pos hst, if_pos hst]
    rfl
  · rw [if_neg hst, if_neg hst]
    rw [run_bind, run_mkdir h]
    cases lookupResult db 0 parent with
    | none => rfl
    | some f =>
        rw [onAnswer_some, onAnswer_some]
        by_cases h1 : f < 0
        · rw [if_pos h1, if_pos h1]
          rfl
        · rw [if_neg h1, if_neg h1]
          rfl

theorem run_cmdRmd (h : Addresses p names parent entry) (db : Redis) :
    run serveRedis (cmdRmd (some p)) db =
      onAnswer db (lookupResult db 0 names) fun fid =>
        if (statOf db fid).isSome then
          if db.dirent (u32 fid) = ∅ then
            onAnswer db (lookupResult db 0 parent) fun f =>
              if f < 0 then .done (.line 450 "Internal error deleting the directory.") db
              else .done (.line 250 "Directory deleted successfully.")
                (applyAll (rmdirWrites f entry fid) db)
          else .done (.line 450 "Internal error deleting the directory.") db
        else .done (.line 550 "Directory not found.") db := by
  show run serveRedis (stat p >>= _) db = _
  rw [run_stat_bind h]
  cases hr : lookupResult db 0 names with
  | none => rfl
  | some fid =>
      rw [onAnswer_some, onAnswer_some]
      by_cases hst : (statOf db fid).isSome
      · have h0 : ¬ fid < 0 := by
          obtain ⟨st, hst'⟩ := Option.isSome_iff_exists.mp hst
          have := (statOf_eq_some.mp hst').1
          omega
        rw [if_pos hst, if_pos hst, run_bind, run_rmdir h, hr, onAnswer_some, if_neg h0]
        by_cases he : db.dirent (u32 fid) = ∅
        · rw [if_pos he, if_pos he]
          cases lookupResult db 0 parent with
          | none => rfl
          | some f =>
              rw [onAnswer_some, onAnswer_some]
              by_cases h1 : f < 0
              · rw [if_pos h1, if_pos h1]
                rfl
              · rw [if_neg h1, if_neg h1]
                rfl
        · rw [if_neg he, if_neg he]
          rfl
      · rw [if_neg hst, if_neg hst]
        rfl

/-! ### What a command can do -/

/-- What a program of lookups answers, if it ends. -/
def ask {α : Type} (q : RedisProg α) (db : Redis) : Option α := (run serveRedis q db).value

theorem ask_lookupFid {q : Text} {ns : List Text} (hq : lookupFid q = lookupWalk 0 ns)
    (db : Redis) : ask (lookupFid q) db = lookupResult db 0 ns := by
  show (run serveRedis (lookupFid q) db).value = _
  rw [hq, run_lookupWalk]
  cases lookupResult db 0 ns <;> rfl

theorem ask_stat (hp : lookupFid p = lookupWalk 0 names) (db : Redis) :
    ask (stat p) db = (lookupResult db 0 names).map (statOf db) := by
  show (run serveRedis (stat p) db).value = _
  rw [run_stat hp]
  cases lookupResult db 0 names <;> rfl

theorem ask_lookupSlaveInfo (hp : lookupFid p = lookupWalk 0 names) (db : Redis) :
    ask (lookupSlaveInfo p) db = (lookupResult db 0 names).map (slaveOf db) := by
  show (run serveRedis (lookupSlaveInfo p) db).value = _
  rw [run_lookupSlaveInfo hp]
  cases lookupResult db 0 names <;> rfl

theorem ask_lookupFid_natCast {q : Text} {ns : List Text} (hq : lookupFid q = lookupWalk 0 ns)
    {db : Redis} {k : ℕ} : ask (lookupFid q) db = some (k : ℤ) ↔ namedFid db ns = some k := by
  rw [ask_lookupFid hq]
  exact lookupResult_eq_natCast

variable {db db' : Redis} {r : Reply}

/-- An answer that ends a run was found. -/
theorem onAnswer_done {β : Type} {fid : Option ℤ} {f : ℤ → Outcome Redis β} {b : β}
    (h : onAnswer db fid f = .done b db') : ∃ x, fid = some x ∧ f x = .done b db' := by
  cases fid with
  | none => exact absurd h (by simp)
  | some x => exact ⟨x, rfl, h⟩

/-- A looked-up number that is not negative is a fid. -/
theorem exists_natCast_of_found {ns : List Text} {f : ℤ} (hr : lookupResult db 0 ns = some f)
    (h0 : ¬ f < 0) : ∃ k : ℕ, f = k ∧ u32 f = k ∧ namedFid db ns = some k := by
  obtain ⟨k, rfl⟩ : ∃ k : ℕ, f = k := ⟨f.toNat, by omega⟩
  have hk := lookupResult_eq_natCast.mp hr
  exact ⟨k, rfl, u32_of_namedFid hk, hk⟩

/-- **`MKD`** is refused, or fails after it has drawn a fid, or makes the directory. -/
theorem cmdMkd_ends (h : Addresses p names parent entry) {now : ℤ} {uid gid : ℕ}
    (hrun : run serveRedis (cmdMkd now (some p) uid gid) db = .done r db') :
    (r.code ≠ some 250 ∧ (db' = db ∨ db' = db.incrFid)) ∨
      (r.code = some 250 ∧ ask (stat p) db = some none ∧ ∃ f : ℕ, namedFid db parent = some f ∧
        db' = applyAll (mkdirWrites now f entry uid gid ((db.fid_counter + 1 : ℕ) : ℤ))
          db.incrFid) := by
  rw [run_cmdMkd h] at hrun
  obtain ⟨fid, hself, hrun⟩ := onAnswer_done hrun
  by_cases hst : (statOf db fid).isSome
  · rw [if_pos hst, Outcome.done.injEq] at hrun
    obtain ⟨rfl, rfl⟩ := hrun
    exact .inl ⟨by decide, .inl rfl⟩
  · rw [if_neg hst] at hrun
    have hst' : statOf db fid = none := by simpa using hst
    obtain ⟨f, hr, hrun⟩ := onAnswer_done hrun
    by_cases h0 : f < 0
    · rw [if_pos h0, Outcome.done.injEq] at hrun
      obtain ⟨rfl, rfl⟩ := hrun
      exact .inl ⟨by decide, .inr rfl⟩
    · rw [if_neg h0, Outcome.done.injEq] at hrun
      obtain ⟨rfl, rfl⟩ := hrun
      obtain ⟨k, rfl, -, hk⟩ := exists_natCast_of_found hr h0
      refine .inr ⟨rfl, ?_, k, hk, rfl⟩
      rw [ask_stat h.lookup_names, hself, Option.map_some, hst']

/-- **`DELE`** changes nothing, or removes a regular file. -/
theorem cmdDele_ends (h : Addresses p names parent entry)
    (hrun : run serveRedis (cmdDele (some p)) db = .done r db') :
    (r.code ≠ some 250 ∧ db' = db) ∨
      (r.code = some 250 ∧ ∃ k f : ℕ, namedFid db names = some k ∧ db.stat k ≠ .absent ∧
        S_ISREG (db.stat k).toStat.st_mode ∧ namedFid db parent = some f ∧
        db' = applyAll (removeWrites f entry k) db) := by
  rw [run_cmdDele h] at hrun
  obtain ⟨fid, hself, hrun⟩ := onAnswer_done hrun
  cases hst : statOf db fid with
  | none =>
      rw [hst, Outcome.done.injEq] at hrun
      obtain ⟨rfl, rfl⟩ := hrun
      exact .inl ⟨by decide, rfl⟩
  | some st =>
      rw [hst] at hrun
      simp only at hrun
      by_cases hreg : S_ISREG st.st_mode
      · rw [if_pos hreg] at hrun
        obtain ⟨f, hr, hrun⟩ := onAnswer_done hrun
        by_cases h0 : f < 0
        · rw [if_pos h0, Outcome.done.injEq] at hrun
          obtain ⟨rfl, rfl⟩ := hrun
          exact .inl ⟨by decide, rfl⟩
        · rw [if_neg h0, Outcome.done.injEq] at hrun
          obtain ⟨rfl, rfl⟩ := hrun
          obtain ⟨i, rfl, -, hi⟩ := exists_natCast_of_found hr h0
          obtain ⟨hfid0, hs0, rfl⟩ := statOf_eq_some.mp hst
          obtain ⟨k, rfl, huk, hk⟩ := exists_natCast_of_found hself (by omega)
          rw [huk] at hs0 hreg
          exact .inr ⟨rfl, k, i, hk, hs0, hreg, hi, rfl⟩
      · rw [if_neg hreg, Outcome.done.injEq] at hrun
        obtain ⟨rfl, rfl⟩ := hrun
        exact .inl ⟨by decide, rfl⟩

/-- **`RMD`** changes nothing, or removes a path whose fid has no `dirent` hash. -/
theorem cmdRmd_ends (h : Addresses p names parent entry)
    (hrun : run serveRedis (cmdRmd (some p)) db = .done r db') :
    (r.code ≠ some 250 ∧ db' = db) ∨
      (r.code = some 250 ∧ ∃ k f : ℕ, namedFid db names = some k ∧ db.stat k ≠ .absent ∧
        db.dirent k = ∅ ∧ namedFid db parent = some f ∧
        db' = applyAll (rmdirWrites f entry k) db) := by
  rw [run_cmdRmd h] at hrun
  obtain ⟨fid, hself, hrun⟩ := onAnswer_done hrun
  by_cases hst : (statOf db fid).isSome
  · rw [if_pos hst] at hrun
    obtain ⟨st, hst'⟩ := Option.isSome_iff_exists.mp hst
    obtain ⟨hfid0, hs0, -⟩ := statOf_eq_some.mp hst'
    obtain ⟨k, rfl, huk, hk⟩ := exists_natCast_of_found hself (by omega)
    rw [huk] at hrun hs0
    by_cases he : db.dirent k = ∅
    · rw [if_pos he] at hrun
      obtain ⟨f, hr, hrun⟩ := onAnswer_done hrun
      by_cases h0 : f < 0
      · rw [if_pos h0, Outcome.done.injEq] at hrun
        obtain ⟨rfl, rfl⟩ := hrun
        exact .inl ⟨by decide, rfl⟩
      · rw [if_neg h0, Outcome.done.injEq] at hrun
        obtain ⟨rfl, rfl⟩ := hrun
        obtain ⟨i, rfl, -, hi⟩ := exists_natCast_of_found hr h0
        exact .inr ⟨rfl, k, i, hk, hs0, he, hi, rfl⟩
    · rw [if_neg he, Outcome.done.injEq] at hrun
      obtain ⟨rfl, rfl⟩ := hrun
      exact .inl ⟨by decide, rfl⟩
  · rw [if_neg hst, Outcome.done.injEq] at hrun
    obtain ⟨rfl, rfl⟩ := hrun
    exact .inl ⟨by decide, rfl⟩

/-- **`RNTO`** changes nothing, or moves the entry within the old directory. -/
theorem cmdRnto_ends {szFrom q : Text} (h : Addresses szFrom names parent entry)
    (hrun : run serveRedis (cmdRnto (some q) szFrom) db = .done r db') :
    (r.code ≠ some 250 ∧ db' = db) ∨
      (r.code = some 250 ∧ ∃ k f : ℕ, namedFid db names = some k ∧ namedFid db parent = some f ∧
        db' = applyAll (renameWrites f entry f (entryName q) k) db) := by
  rw [run_cmdRnto h] at hrun
  obtain ⟨fid, hself, hrun⟩ := onAnswer_done hrun
  by_cases h0 : fid < 0
  · rw [if_pos h0, Outcome.done.injEq] at hrun
    obtain ⟨rfl, rfl⟩ := hrun
    exact .inl ⟨by decide, rfl⟩
  · rw [if_neg h0] at hrun
    obtain ⟨f, hr, hrun⟩ := onAnswer_done hrun
    by_cases h1 : f < 0
    · rw [if_pos h1, Outcome.done.injEq] at hrun
      obtain ⟨rfl, rfl⟩ := hrun
      exact .inl ⟨by decide, rfl⟩
    · rw [if_neg h1, Outcome.done.injEq] at hrun
      obtain ⟨rfl, rfl⟩ := hrun
      obtain ⟨k, rfl, -, hk⟩ := exists_natCast_of_found hself h0
      obtain ⟨i, rfl, -, hi⟩ := exists_natCast_of_found hr h1
      exact .inr ⟨rfl, k, i, hk, hi, rfl⟩

/-- The two ends of an upload: nothing is recorded, or the file is, under the next fid. -/
def StoreEnds (db db' : Redis) (now : ℤ) (parent : List Text) (entry : Text) (uid gid : ℕ)
    (transfer : ℤ → TransferResult) (r : Option ℤ) : Prop :=
  (r ≠ some 0 ∧ db'.dirent = db.dirent ∧ db'.stat = db.stat ∧
      (db'.fid_counter = db.fid_counter ∨ db'.fid_counter = db.fid_counter + 1)) ∨
    ∃ (f : ℕ) (size : ℤ) (slave : SlaveInfo), r = some 0 ∧ namedFid db parent = some f ∧
      transfer ((db.fid_counter + 1 : ℕ) : ℤ) = some (size, slave) ∧ 0 ≤ size ∧
      db'.fid_counter = db.fid_counter + 1 ∧
      db'.dirent = setEntry db.dirent f entry (u32 ((db.fid_counter + 1 : ℕ) : ℤ) : ℕ) ∧
      db'.stat = Function.update db.stat (u32 ((db.fid_counter + 1 : ℕ) : ℤ))
        (saveStat now { size, uid, gid, fid := ((db.fid_counter + 1 : ℕ) : ℤ), slave })

theorem run_storeThread (newTransaction : Bool) (now : ℤ) (p : Text) (uid gid : ℕ)
    (transfer : ℤ → TransferResult) (db : Redis) :
    ∃ db₁ : Redis, db₁.dirent = db.dirent ∧ db₁.stat = db.stat ∧
      db₁.fid_counter = db.fid_counter + 1 ∧
      run serveRedis (storeThread newTransaction now p uid gid transfer) db =
        run serveRedis (recordFile now p uid gid ((db.fid_counter + 1 : ℕ) : ℤ)
          (transfer ((db.fid_counter + 1 : ℕ) : ℤ))) db₁ := by
  cases newTransaction with
  | false => exact ⟨db.incrFid, rfl, rfl, rfl, rfl⟩
  | true =>
      exact ⟨{ db.incrFid with transaction_counter := db.transaction_counter + 1 },
        rfl, rfl, rfl, rfl⟩

theorem storeThread_ends (h : Addresses p names parent entry) {newTransaction : Bool} {now : ℤ}
    {uid gid : ℕ} {transfer : ℤ → TransferResult} {r : Option ℤ}
    (hrun : run serveRedis (storeThread newTransaction now p uid gid transfer) db = .done r db') :
    StoreEnds db db' now parent entry uid gid transfer r := by
  obtain ⟨db₁, hd, hs, hc, heq⟩ := run_storeThread newTransaction now p uid gid transfer db
  rw [heq] at hrun
  cases ht : transfer ((db.fid_counter + 1 : ℕ) : ℤ) with
  | none =>
      rw [ht] at hrun
      simp only [recordFile, Prog.pure_eq, run_ret, Outcome.done.injEq] at hrun
      obtain ⟨rfl, rfl⟩ := hrun
      exact .inl ⟨by simp, hd, hs, .inr hc⟩
  | some res =>
      obtain ⟨size, slave⟩ := res
      rw [ht] at hrun
      by_cases hsize : 0 ≤ size
      · rw [recordFile, if_pos hsize, run_bind_done] at hrun
        obtain ⟨a, u, hsave, hret⟩ := hrun
        simp only [Prog.pure_eq, run_ret, Outcome.done.injEq] at hret
        obtain ⟨rfl, rfl⟩ := hret
        rw [run_saveNewFile h, lookupResult_congr hd] at hsave
        obtain ⟨f, hl, hsave⟩ := onAnswer_done hsave
        by_cases hf : f < 0
        · rw [if_pos hf, Outcome.done.injEq] at hsave
          obtain ⟨rfl, rfl⟩ := hsave
          exact .inl ⟨by simp, hd, hs, .inr hc⟩
        · rw [if_neg hf, Outcome.done.injEq] at hsave
          obtain ⟨rfl, rfl⟩ := hsave
          obtain ⟨i, rfl, hu, hi⟩ := exists_natCast_of_found hl hf
          refine .inr ⟨i, size, slave, rfl, hi, ht, hsize, ?_, ?_, ?_⟩
          · rw [applyAll_fid_counter, hc]
          · rw [saveWrites_dirent, hd, hu]
          · rw [saveWrites_stat, hs]
      · rw [recordFile, if_neg hsize] at hrun
        simp only [Prog.pure_eq, run_ret, Outcome.done.injEq] at hrun
        obtain ⟨rfl, rfl⟩ := hrun
        exact .inl ⟨by simp, hd, hs, .inr hc⟩

/-- **An upload** records nothing, or the file under the next fid. -/
theorem storeFile_ends (h : Addresses p names parent entry) {cmd : UploadCmd}
    {newTransaction : Bool} {now : ℤ} {uid gid : ℕ} {transfer : ℤ → TransferResult}
    {r : Option ℤ}
    (hrun : run serveRedis (storeFile cmd newTransaction now p uid gid transfer) db =
      .done r db') : StoreEnds db db' now parent entry uid gid transfer r := by
  cases cmd with
  | stor => exact storeThread_ends h hrun
  | appe =>
      have hrun' : run serveRedis
          (stat p >>= fun _ => storeThread newTransaction now p uid gid transfer) db =
          .done r db' := hrun
      rw [run_stat_bind h] at hrun'
      obtain ⟨fid, -, hrun'⟩ := onAnswer_done hrun'
      exact storeThread_ends h hrun'
  | stou =>
      have hrun' : run serveRedis
          (stat p >>= fun st => if st.isSome then .ret none
            else storeThread newTransaction now p uid gid transfer) db = .done r db' := hrun
      rw [run_stat_bind h] at hrun'
      obtain ⟨fid, -, hrun'⟩ := onAnswer_done hrun'
      by_cases hst : (statOf db fid).isSome
      · rw [if_pos hst, run_ret, Outcome.done.injEq] at hrun'
        obtain ⟨rfl, rfl⟩ := hrun'
        exact .inl ⟨by simp, rfl, rfl, .inl rfl⟩
      · rw [if_neg hst] at hrun'
        exact storeThread_ends h hrun'

/-- `STOU` records a file only where `stat` fails. -/
theorem storeFile_stou_free (h : Addresses p names parent entry) {newTransaction : Bool} {now : ℤ}
    {uid gid : ℕ} {transfer : ℤ → TransferResult}
    (hrun : run serveRedis (storeFile .stou newTransaction now p uid gid transfer) db =
      .done (some 0) db') : ask (stat p) db = some none := by
  have hrun' : run serveRedis
      (stat p >>= fun st => if st.isSome then .ret none
        else storeThread newTransaction now p uid gid transfer) db = .done (some 0) db' := hrun
  rw [run_stat_bind h] at hrun'
  obtain ⟨fid, hself, hrun'⟩ := onAnswer_done hrun'
  by_cases hst : (statOf db fid).isSome
  · rw [if_pos hst, run_ret, Outcome.done.injEq] at hrun'
    exact absurd hrun'.1 (by simp)
  · have hst' : statOf db fid = none := by simpa using hst
    rw [ask_stat h.lookup_names, hself, Option.map_some, hst']

end ClusterFtpd
