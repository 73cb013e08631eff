import ClusterFtpd.VfsFrame

/-!
# The record of a stored file

`save_new_file` writes its arguments with `%u`; `stat`, `lookup_slave_info` and `lookup_fid` read
the texts back through an `int`.  An owner, a group and a port come back whatever they are.  A size
and a fid come back when they fit an `int`.

Main result: `recorded_iff`: the record is read back as it was given exactly when its fid and its
size are below 2^31.
-/

namespace ClusterFtpd

open Interaction MachineInt NameGraph PathComponents

/-! ### Writing with `%u` and reading with `atoi` -/

theorem int32_u32_iff {x : ℤ} (h0 : 0 ≤ x) (h : x < 9223372036854775808) :
    int32 (u32 x) = x ↔ x < 2147483648 := by
  constructor
  · intro heq
    rw [← heq]
    exact int32_lt _
  · intro hlt
    exact int32_u32 (by omega) hlt

theorem u32_atoi_u32 {n : ℕ} (h : n < 4294967296) : u32 (atoi (some (u32 n : ℕ))) = n := by
  unfold atoi
  rw [Option.getD_some, u32_int32, u32_natCast h, u32_natCast h]

theorem u32_atoi_natCast {n : ℕ} (h : n < 4294967296) : u32 (atoi (some (n : ℤ))) = n := by
  unfold atoi
  rw [Option.getD_some, u32_int32, u32_natCast h]

/-! ### The statement -/

/-- What `save_new_file` is given: a fid and a size of 64 bits, an owner and a group of 32 bits,
and a slave with a port. -/
structure FileRecord.Given (r : FileRecord) : Prop where
  fid_pos : 0 < r.fid
  fid_lt : r.fid < 9223372036854775808
  size_nonneg : 0 ≤ r.size
  size_lt : r.size < 9223372036854775808
  uid_lt : r.uid < 4294967296
  gid_lt : r.gid < 4294967296
  port : ∃ port, r.slave.port = some port

/-- The record of `path` is read back as it was given, and it is all that was written: the `stat`
hash of its fid and one entry in the directory `f`. -/
structure Recorded (db db' : Redis) (path : Text) (f : ℕ) (r : FileRecord) : Prop where
  found : ask (lookupFid path) db' = some r.fid
  status : ∃ st, ask (stat path) db' = some (some st) ∧ st.st_size = r.size ∧
    st.st_uid = r.uid ∧ st.st_gid = r.gid
  slave : ask (lookupSlaveInfo path) db' = some r.slave
  other_stat : ∀ k : ℕ, (k : ℤ) ≠ r.fid → db'.stat k = db.stat k
  other_dirent : ∀ k n, ¬ (k = f ∧ n = entryName path) →
    (db'.dirent k).lookup n = (db.dirent k).lookup n

variable {db db' : Redis} {parent : List Text} {entry : Text} {f : ℕ} {r : FileRecord} {now : ℤ}

/-! ### The hashes after `save_new_file` -/

theorem st_size_saveStat (now : ℤ) (r : FileRecord) :
    (saveStat now r).toStat.st_size = int32 (u32 r.size) := by
  show atoi (some (u32 r.size : ℕ)) = _
  unfold atoi
  rw [Option.getD_some]

theorem toStat_saveStat (hr : r.Given) :
    (saveStat now r).toStat.st_uid = r.uid ∧ (saveStat now r).toStat.st_gid = r.gid := by
  unfold StatHash.toStat saveStat
  dsimp only
  exact ⟨u32_atoi_u32 hr.uid_lt, u32_atoi_u32 hr.gid_lt⟩

theorem slaveOf_saveStat (hport : ∃ port, r.slave.port = some port) {fid : ℤ}
    (hs : db'.stat (u32 fid) = saveStat now r) : slaveOf db' fid = r.slave := by
  obtain ⟨port, hport⟩ := hport
  have hread : u32 (atoi (saveStat now r).slave_port) = port.toNat := by
    have hlt := port.toNat_lt
    show u32 (atoi (some ((r.slave.port.getD 0).toNat : ℤ))) = port.toNat
    rw [hport, Option.getD_some]
    exact u32_atoi_natCast (by omega)
  unfold slaveOf
  rw [hs, if_neg (saveStat_ne_absent now r), hread]
  have hof : UInt16.ofNat port.toNat = port := UInt16.ofNat_toNat
  rw [hof, ← hport]
  rfl

/-- What the lookups answer where the names lead to the record. -/
theorem saved_reads {p : Text} {names : List Text} {fid : ℤ}
    (hp : lookupFid p = lookupWalk 0 names) (hfound : lookupResult db' 0 names = some fid)
    (h0 : 0 ≤ fid) (hs : db'.stat (u32 fid) = saveStat now r)
    (hport : ∃ port, r.slave.port = some port) :
    ask (lookupFid p) db' = some fid ∧ ask (stat p) db' = some (some (saveStat now r).toStat) ∧
      ask (lookupSlaveInfo p) db' = some r.slave := by
  refine ⟨?_, ?_, ?_⟩
  · rw [ask_lookupFid hp, hfound]
  · have hneg : ¬ fid < 0 := by omega
    rw [ask_stat hp, hfound, Option.map_some]
    unfold statOf
    rw [if_neg hneg, hs, if_neg (saveStat_ne_absent now r)]
  · rw [ask_lookupSlaveInfo hp, hfound, Option.map_some, slaveOf_saveStat hport hs]

/-- The walk to the directory does not go through the entry, so it arrives again, and the entry
then leads to the new fid. -/
theorem lookup_saved {j : ℕ} (hf : namedFid db parent = some f)
    (hway : ¬ Uses (child db) 0 parent f entry)
    (hd : db'.dirent = setEntry db.dirent f entry (j : ℤ)) (hj : j < 2147483648) :
    lookupResult db' 0 (parent ++ [entry]) = some (j : ℤ) := by
  rw [lookupResult_eq_natCast, namedFid_eq_some]
  refine ⟨?_, hj⟩
  obtain ⟨hwalk, -⟩ := namedFid_eq_some.mp hf
  have hkeep : walk (child db') 0 parent = some f := by
    refine walk_mono_off ?_ hway hwalk
    intro a m d hne hd'
    rw [← hd']
    show ((db'.dirent a).lookup m).map u32 = _
    rw [hd, lookup_setEntry, if_neg hne]
    rfl
  have hentry : child db' f entry = some j := by
    show ((db'.dirent f).lookup entry).map u32 = _
    rw [hd, lookup_setEntry, if_pos ⟨rfl, rfl⟩, Option.map_some, u32_natCast (by omega)]
  rw [walk_append, hkeep, Option.bind_some, walk_cons, hentry]
  rfl

/-- In a tree the way to a directory does not take an entry of that directory. -/
theorem TreeShaped.not_uses_own (h : TreeShaped db) (hnames : ∀ c ∈ parent ++ [entry], IsEntry c)
    (hf : namedFid db parent = some f) : ¬ Uses (child db) 0 parent f entry := by
  have ha := addresses_absolute hnames
  rw [List.dropLast_concat, List.getLast?_concat, Option.getD_some] at ha
  intro hu
  obtain ⟨-, r, heq⟩ := h.below_of_uses ha hf (entries_of_append hnames) hu
  have hlen := congrArg List.length heq
  simp only [List.length_append, List.length_singleton] at hlen
  omega

/-- What a lookup answers fits an `int`. -/
theorem lookupResult_lt {fid : ℤ} (h : fid < 2147483648) {ts : List Text} {v : ℤ}
    (hv : lookupResult db fid ts = some v) : v < 2147483648 := by
  induction ts generalizing fid with
  | nil =>
      rw [lookupResult, Option.some.injEq] at hv
      omega
  | cons t ts ih =>
      rw [lookupResult] at hv
      split_ifs at hv
      cases hl : (db.dirent (u32 fid)).lookup t with
      | none =>
          rw [hl] at hv
          have hv' : -1 = v := Option.some.inj hv
          omega
      | some w =>
          rw [hl] at hv
          exact ih (int32_lt w) hv

/-- **A stored record** is read back exactly when its fid and its size fit an `int`. -/
theorem recorded_iff (hnames : ∀ c ∈ parent ++ [entry], IsEntry c)
    (hf : ask (lookupFid (absolute '/' parent)) db = some (f : ℤ))
    (hway : ¬ Uses (child db) 0 parent f entry) (hr : r.Given) :
    ∃ db', run serveRedis (saveNewFile now (absolute '/' (parent ++ [entry])) r) db = .done 0 db' ∧
      (Recorded db db' (absolute '/' (parent ++ [entry])) f r ↔
        r.fid < 2147483648 ∧ r.size < 2147483648) := by
  have ha := addresses_absolute hnames
  rw [List.dropLast_concat, List.getLast?_concat, Option.getD_some] at ha
  rw [ask_absolute (entries_of_append hnames)] at hf
  have hf0 : ¬ ((f : ℤ) < 0) := by omega
  have hkey := u32_of_namedFid hf
  refine ⟨applyAll (saveWrites now f entry r) db, ?_, ?_⟩
  · rw [run_saveNewFile ha, lookupResult_eq_natCast.mpr hf, onAnswer_some, if_neg hf0]
  have hd := saveWrites_dirent db now f entry r
  have hs := saveWrites_stat db now f entry r
  generalize applyAll (saveWrites now f entry r) db = db' at hd hs
  rw [hkey] at hd
  have hstat : db'.stat (u32 r.fid) = saveStat now r := by
    rw [hs, Function.update_self]
  constructor
  · intro hrec
    have hfound := hrec.found
    rw [ask_lookupFid ha.lookup_names] at hfound
    have hfid := lookupResult_lt (by omega) hfound
    refine ⟨hfid, ?_⟩
    obtain ⟨st, hst, hsize, -, -⟩ := hrec.status
    have hpos : ¬ r.fid < 0 := by
      have := hr.fid_pos
      omega
    rw [ask_stat ha.lookup_names, hfound, Option.map_some, Option.some.injEq] at hst
    unfold statOf at hst
    rw [if_neg hpos, hstat, if_neg (saveStat_ne_absent now r), Option.some.injEq] at hst
    rw [← hst, st_size_saveStat] at hsize
    exact (int32_u32_iff hr.size_nonneg hr.size_lt).mp hsize
  · intro hsmall
    obtain ⟨hfid, hsize⟩ := hsmall
    have hpos := hr.fid_pos
    have hsize0 := hr.size_nonneg
    have hu : (u32 r.fid : ℤ) = r.fid := by
      rw [u32_of_nonneg (by omega) (by omega)]
      omega
    have hfound : lookupResult db' 0 (parent ++ [entry]) = some r.fid := by
      rw [lookup_saved hf hway hd (by omega), hu]
    obtain ⟨hlookup, hread, hslave⟩ := saved_reads ha.lookup_names hfound (by omega) hstat hr.port
    obtain ⟨huid, hgid⟩ : (saveStat now r).toStat.st_uid = _ ∧ _ := toStat_saveStat hr
    refine ⟨hlookup, ⟨(saveStat now r).toStat, hread, ?_, huid, hgid⟩, hslave, ?_, ?_⟩
    · rw [st_size_saveStat]
      exact int32_u32 (by omega) hsize
    · intro k hk
      rw [hs, Function.update_of_ne]
      omega
    · intro k n hne
      rw [ha.entry_eq] at hne
      rw [hd, lookup_setEntry, if_neg hne]

/-- The record of a file with 3 bytes at `/a` of a new file system. -/
theorem recorded_iff_a :
    ∃ db', run serveRedis (saveNewFile 0 (absolute '/' ([] ++ [['a']]))
        ⟨3, 1, 1, 1, ⟨"s".toList, some 9090⟩⟩) (initRedis 0) = .done 0 db' ∧
      (Recorded (initRedis 0) db' (absolute '/' ([] ++ [['a']])) 0
          ⟨3, 1, 1, 1, ⟨"s".toList, some 9090⟩⟩ ↔
        (1 : ℤ) < 2147483648 ∧ (3 : ℤ) < 2147483648) := by
  have hnames : ∀ c ∈ ([] : List Text) ++ [['a']], IsEntry c := by decide
  exact recorded_iff hnames rfl ((treeShaped_initRedis 0).not_uses_own hnames rfl)
    ⟨by decide, by decide, by decide, by decide, by decide, by decide, 9090, rfl⟩

/-- **A file of 2^31 bytes**: `stat` gives a negative size. -/
theorem size_read_back_negative :
    ¬ ∀ (now : ℤ) (db db' : Redis) (parent : List Text) (entry : Text) (f : ℕ) (r : FileRecord),
      (∀ c ∈ parent ++ [entry], IsEntry c) →
      ask (lookupFid (absolute '/' parent)) db = some (f : ℤ) →
      ¬ Uses (child db) 0 parent f entry → r.Given →
      run serveRedis (saveNewFile now (absolute '/' (parent ++ [entry])) r) db = .done 0 db' →
      Recorded db db' (absolute '/' (parent ++ [entry])) f r := by
  intro hall
  have hnames : ∀ c ∈ ([] : List Text) ++ [['a']], IsEntry c := by decide
  have hrec := hall 0 (initRedis 0) _ [] ['a'] 0
    ⟨2147483648, 1, 1, 1, ⟨"s".toList, some 9090⟩⟩ hnames rfl
    ((treeShaped_initRedis 0).not_uses_own hnames rfl)
    ⟨by decide, by decide, by decide, by decide, by decide, by decide, 9090, rfl⟩ rfl
  obtain ⟨st, hst, hsize, -, -⟩ := hrec.status
  have hread : ask (stat (absolute '/' ([] ++ [['a']])))
      (applyAll (saveWrites 0 0 ['a'] ⟨2147483648, 1, 1, 1, ⟨"s".toList, some 9090⟩⟩)
        (initRedis 0)) = some (some ⟨33279, -2147483648, 1, 1, 0⟩) := rfl
  have heq := hst.symm.trans hread
  rw [Option.some.injEq, Option.some.injEq] at heq
  rw [heq] at hsize
  exact absurd hsize (by decide)

end ClusterFtpd
