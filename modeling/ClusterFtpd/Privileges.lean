import ClusterFtpd.Rename
import ClusterFtpd.Retrieve
import ClusterFtpd.Uploads

/-!
# Privileges and the nodes of the tree

A command tests the privilege of its own word; what it does to the tree depends on the node it
meets.  `Covered` says that the mask of a session has a privilege for every node that a step takes
away, and for every directory it makes.

* `DELE` and `RNFR` ask for `DELETEFILE`, which covers every node;
* `RMD` removes any path without entries, a regular file too, and asks for `DELETEDIR` only;
* an upload replaces the node at its path, whatever it is, and asks for `WRITEFILE` only.

`privileges_cover` has the two exceptions as its conditions.
-/

namespace ClusterFtpd

open Interaction MachineInt NameGraph

/-! ### What a mask covers -/

/-- The mask has the privilege. -/
def Granted (m ucPriv : ℕ) : Prop := ucPriv &&& m = ucPriv

instance (m ucPriv : ℕ) : Decidable (Granted m ucPriv) := inferInstanceAs (Decidable (_ = _))

/-- The mask has a privilege for the loss of a node with this record. -/
structure CoversLoss (m : ℕ) (h : StatHash) : Prop where
  file : IsReg h → Granted m DELETEFILE ∨ Granted m WRITEFILE
  dir : IsDir h → Granted m DELETEDIR ∨ Granted m DELETEFILE

/-- The mask has a privilege for every path that no longer leads to its node, and for every new
directory. -/
structure Covered (m : ℕ) (db db' : Redis) : Prop where
  lost : ∀ ns k, namedFid db ns = some k → namedFid db' ns ≠ some k → CoversLoss m (db.stat k)
  created : ∀ ns k, namedFid db' ns = some k → IsDir (db'.stat k) →
    Granted m CREATEDIR ∨ ∃ ns', namedFid db ns' = some k ∧ IsDir (db.stat k)

variable {cfg : Config} {env : Env} {w w' : World} {cs : List Call} {db db' : Redis} {m f : ℕ}
  {entry : Text}

/-- `DELETEFILE` covers every loss. -/
theorem CoversLoss.of_deleteFile (hm : Granted m DELETEFILE) (h : StatHash) : CoversLoss m h :=
  ⟨fun _ => .inl hm, fun _ => .inr hm⟩

/-- A change of one edge loses what is behind it. -/
theorem coversLoss_of_edge
    (hkeep : ∀ a n d, ¬ (a = f ∧ n = entry) → child db a n = some d → child db' a n = some d)
    (hbehind : ∀ rest k, walk (child db) f (entry :: rest) = some k → k < 2147483648 →
      CoversLoss m (db.stat k)) {ns : List Text} {k : ℕ} (hk : namedFid db ns = some k)
    (hlost : namedFid db' ns ≠ some k) : CoversLoss m (db.stat k) := by
  obtain ⟨hwalk, hlt⟩ := namedFid_eq_some.mp hk
  have hlost' : walk (child db') 0 ns ≠ some k :=
    fun hwalk' => hlost (namedFid_eq_some.mpr ⟨hwalk', hlt⟩)
  obtain ⟨rest, hrest⟩ := walk_of_uses (uses_of_lost hkeep hwalk hlost') hwalk
  exact hbehind rest k hrest hlt

/-- Edges that lead where edges led before make no new directory. -/
theorem created_of_old {P : ℕ → Prop} (hP : ∀ k, P k → ¬ IsDir (db'.stat k))
    (hstat : ∀ k, ¬ P k → IsDir (db'.stat k) → IsDir (db.stat k))
    (hedge : ∀ a n b, child db' a n = some b →
      P b ∨ (∃ ys, walk (child db) 0 ys = some b) ∨ (child db a n = some b ∧ ¬ P a))
    {ns : List Text} {k : ℕ} (hk : namedFid db' ns = some k) (hdir : IsDir (db'.stat k)) :
    ∃ ns', namedFid db ns' = some k ∧ IsDir (db.stat k) := by
  obtain ⟨hwalk, hlt⟩ := namedFid_eq_some.mp hk
  have hnot : ¬ P k := fun hp => hP k hp hdir
  obtain hp | ⟨ys, hys⟩ := reached_or_new hedge hwalk
  · exact absurd hp hnot
  · exact ⟨ys, namedFid_eq_some.mpr ⟨hys, hlt⟩, hstat k hnot hdir⟩

/-- The directories and the records are the same. -/
theorem Covered.of_same (hdirent : db'.dirent = db.dirent) (hstat : db'.stat = db.stat) :
    Covered m db db' := by
  have hnamed : ∀ ns, namedFid db' ns = namedFid db ns := by
    intro ns
    rw [namedFid, namedFid, child_congr hdirent]
  refine ⟨fun ns k hk hlost => ?_, fun ns k hk hdir => ?_⟩
  · rw [hnamed] at hlost
    exact absurd hk hlost
  · rw [hnamed] at hk
    rw [hstat] at hdir
    exact .inr ⟨ns, hk, hdir⟩

/-- What a step does before and after it changes the tree does not matter. -/
theorem Covered.congr {db₀ : Redis} (h : Covered m db db') (hdirent : db₀.dirent = db.dirent)
    (hstat : db₀.stat = db.stat) : Covered m db₀ db' := by
  have hnamed : ∀ ns, namedFid db₀ ns = namedFid db ns := by
    intro ns
    rw [namedFid, namedFid, child_congr hdirent]
  refine ⟨fun ns k hk hlost => ?_, fun ns k hk hdir => ?_⟩
  · rw [hnamed] at hk
    rw [hstat]
    exact h.lost ns k hk hlost
  · obtain hmay | ⟨ns', hns', hdir'⟩ := h.created ns k hk hdir
    · exact .inl hmay
    · refine .inr ⟨ns', ?_, ?_⟩
      · rw [hnamed]
        exact hns'
      · rw [hstat]
        exact hdir'

/-! ### The transactions -/

theorem child_dropEntry (hd : db'.dirent = dropEntry db.dirent f entry) (a : ℕ)
    (n : Text) : child db' a n = if a = f ∧ n = entry then none else child db a n := by
  show ((db'.dirent a).lookup n).map u32 = _
  rw [hd, lookup_dropEntry]
  split_ifs <;> rfl

theorem child_setEntry {v : ℤ} (hd : db'.dirent = setEntry db.dirent f entry v) (a : ℕ)
    (n : Text) : child db' a n = if a = f ∧ n = entry then some (u32 v) else child db a n := by
  show ((db'.dirent a).lookup n).map u32 = _
  rw [hd, lookup_setEntry]
  split_ifs <;> rfl

/-- A removed entry makes nothing new. -/
theorem created_dropEntry {k₀ : ℕ} (hd : db'.dirent = dropEntry db.dirent f entry)
    (hs : db'.stat = Function.update db.stat k₀ .absent) {ns : List Text} {k : ℕ}
    (hk : namedFid db' ns = some k) (hdir : IsDir (db'.stat k)) :
    ∃ ns', namedFid db ns' = some k ∧ IsDir (db.stat k) := by
  refine created_of_old (P := fun _ => False) (fun _ h => h.elim) (fun j _ hj => ?_)
    (fun a n b hb => ?_) hk hdir
  · rw [hs] at hj
    by_cases hjk : j = k₀
    · rw [hjk, Function.update_self] at hj
      exact absurd hj not_isDir_absent
    · rwa [Function.update_of_ne hjk] at hj
  · rw [child_dropEntry hd] at hb
    by_cases hedge : a = f ∧ n = entry
    · rw [if_pos hedge] at hb
      exact absurd hb (by simp)
    · rw [if_neg hedge] at hb
      exact .inr (.inr ⟨hb, fun h => h⟩)

/-- **`remove`** and **`rmdir`** lose what is behind the entry. -/
theorem covered_dropEntry (k₀ : ℕ) (hd : db'.dirent = dropEntry db.dirent f entry)
    (hs : db'.stat = Function.update db.stat k₀ .absent)
    (hbehind : ∀ rest k, walk (child db) f (entry :: rest) = some k → k < 2147483648 →
      CoversLoss m (db.stat k)) : Covered m db db' := by
  refine ⟨fun ns k hk hlost => coversLoss_of_edge (fun a n d hne had => ?_) hbehind hk hlost,
    fun ns k hk hdir => .inr (created_dropEntry hd hs hk hdir)⟩
  rw [child_dropEntry hd, if_neg hne]
  exact had

/-- **`rename`** loses nothing that `DELETEFILE` does not cover. -/
theorem covered_rename {newentry : Text} {k₀ : ℕ} (hm : Granted m DELETEFILE) {ns₀ : List Text}
    (hk₀ : namedFid db ns₀ = some k₀)
    (hd : db'.dirent = setEntry (dropEntry db.dirent f entry) f newentry (u32 (k₀ : ℤ) : ℕ))
    (hs : db'.stat = db.stat) : Covered m db db' := by
  refine ⟨fun ns k _ _ => .of_deleteFile hm _, fun ns k hk hdir => .inr ?_⟩
  refine created_of_old (P := fun _ => False) (fun _ h => h.elim) (fun j _ hj => ?_)
    (fun a n b hb => ?_) hk hdir
  · rwa [hs] at hj
  · have hb' : ((db'.dirent a).lookup n).map u32 = some b := hb
    rw [hd, lookup_setEntry, lookup_dropEntry] at hb'
    split_ifs at hb' with hnew hold
    · -- the new entry leads to the node that was there before
      have hb₀ : b = k₀ := by
        rw [Option.map_some, Option.some.injEq, u32_of_namedFid hk₀, u32_of_namedFid hk₀] at hb'
        exact hb'.symm
      rw [hb₀]
      exact .inr (.inl ⟨ns₀, (namedFid_eq_some.mp hk₀).1⟩)
    · exact absurd hb' (by simp)
    · exact .inr (.inr ⟨hb', fun h => h⟩)

/-- The next fid has no entries, and every node at or behind the path may go. -/
def Vacant (mayGo : StatHash → Prop) (db : Redis) (path : Text) : Prop :=
  ∀ f : ℕ, ask (lookupFid (parentPath path)) db = some (f : ℤ) →
    db.dirent (u32 db.nextFid) = ∅ ∧
      ∀ rest k, walk (child db) f (entryName path :: rest) = some k → k < 2147483648 →
        mayGo (db.stat k)

theorem Vacant.mono {mayGo mayGo' : StatHash → Prop} {path : Text} (h : Vacant mayGo db path)
    (hle : ∀ r, mayGo r → mayGo' r) : Vacant mayGo' db path := by
  intro f hf
  obtain ⟨hfree, hbehind⟩ := h f hf
  exact ⟨hfree, fun rest k hwalk hlt => hle _ (hbehind rest k hwalk hlt)⟩

/-- **`mkdir`** loses what is behind the entry it takes. -/
theorem covered_mkdir {now : ℤ} {uid gid : ℕ} (hm : Granted m CREATEDIR)
    (hfree : db.dirent (u32 db.nextFid) = ∅)
    (hbehind : ∀ rest k, walk (child db) f (entry :: rest) = some k → k < 2147483648 →
      CoversLoss m (db.stat k)) (hf : f < 2147483648) :
    Covered m db (applyAll (mkdirWrites now f entry uid gid db.nextFid) db.incrFid) := by
  refine ⟨fun ns k hk hlost => coversLoss_of_edge (fun a n d hne had => ?_) hbehind hk hlost,
    fun _ _ _ _ => .inl hm⟩
  show (((applyAll (mkdirWrites now f entry uid gid db.nextFid) db.incrFid).dirent a).lookup n).map
    u32 = some d
  have hnew : ¬ (a = u32 db.nextFid ∧ n = placeholder) := by
    intro h
    rw [h.1, child_eq_none_of_empty hfree] at had
    exact absurd had (by simp)
  have hfu : u32 (f : ℤ) = f := u32_natCast (by omega)
  rw [mkdirWrites_dirent, lookup_setEntry, if_neg hnew, lookup_setEntry, hfu, if_neg hne]
  exact had

/-- **`save_new_file`** loses what is behind the entry it takes, and makes no directory. -/
theorem covered_save {now : ℤ} {r : FileRecord} (hfree : db.dirent (u32 r.fid) = ∅)
    (hbehind : ∀ rest k, walk (child db) f (entry :: rest) = some k → k < 2147483648 →
      CoversLoss m (db.stat k)) (hf : f < 2147483648) :
    Covered m db (applyAll (saveWrites now f entry r) db) := by
  have hfu : u32 (f : ℤ) = f := u32_natCast (by omega)
  have hd : (applyAll (saveWrites now f entry r) db).dirent =
      setEntry db.dirent f entry (u32 r.fid : ℕ) := by
    rw [saveWrites_dirent, hfu]
  have hs := saveWrites_stat db now f entry r
  refine ⟨fun ns k hk hlost => coversLoss_of_edge (fun a n d hne had => ?_) hbehind hk hlost,
    fun ns k hk hdir => .inr ?_⟩
  · rw [child_setEntry hd, if_neg hne]
    exact had
  · refine created_of_old (P := fun j => j = u32 r.fid) (fun j hj => ?_) (fun j hj hdir => ?_)
      (fun a n b hb => ?_) hk hdir
    · rw [hj, hs, Function.update_self]
      exact not_isDir_saveStat now r
    · rw [hs, Function.update_of_ne hj] at hdir
      exact hdir
    · rw [child_setEntry hd] at hb
      by_cases hedge : a = f ∧ n = entry
      · rw [if_pos hedge, Option.some.injEq] at hb
        have hu : u32 ((u32 r.fid : ℕ) : ℤ) = u32 r.fid :=
          u32_natCast (by unfold u32; omega)
        exact .inl (hb.symm.trans hu)
      · rw [if_neg hedge] at hb
        refine .inr (.inr ⟨hb, fun ha => ?_⟩)
        rw [ha, child_eq_none_of_empty hfree] at hb
        exact absurd hb (by simp)

/-! ### The functions of `redis_vfs` -/

/-- A lookup that ends with a number that is not negative has followed names to it. -/
theorem named_of_lookup {path : Text} {fid : ℤ}
    (hrun : run serveRedis (lookupFid path) db = .done fid db') (hfid : ¬ fid < 0) :
    ∃ (ns : List Text) (k : ℕ), fid = k ∧ namedFid db ns = some k := by
  unfold lookupFid at hrun
  by_cases hroot : (path.splitOn '/').length = 2 ∧ (path.splitOn '/')[1]? = some []
  · rw [if_pos hroot, run_ret, Outcome.done.injEq] at hrun
    exact ⟨[], 0, hrun.1.symm, rfl⟩
  · rw [if_neg hroot] at hrun
    cases hts : lookupTokens path with
    | none =>
        rw [hts] at hrun
        exact absurd hrun (by simp)
    | some ts =>
        rw [hts] at hrun
        dsimp only at hrun
        rw [run_lookupWalk] at hrun
        cases hr : lookupResult db 0 ts with
        | none => rw [hr] at hrun; exact absurd hrun (by simp [answer])
        | some x =>
            rw [hr] at hrun
            have hend : Outcome.done x db = .done fid db' := hrun
            rw [Outcome.done.injEq] at hend
            obtain ⟨rfl, -⟩ := hend
            obtain ⟨k, hk, -, hnamed⟩ := exists_natCast_of_found hr hfid
            exact ⟨ts, k, hk, hnamed⟩

/-- A lookup goes before the rest of a program. -/
theorem lookup_bind_done {α : Type} {path : Text} {p : ℤ → RedisProg α} {a : α}
    (hrun : run serveRedis (lookupFid path >>= p) db = .done a db') : ∃ fid,
    run serveRedis (lookupFid path) db = .done fid db ∧ ask (lookupFid path) db = some fid ∧
      run serveRedis (p fid) db = .done a db' := by
  obtain ⟨fid, db₁, hlookup, hrest⟩ := (run_bind_done _).mp hrun
  obtain ⟨rfl, -⟩ := lookupFid_done hlookup
  refine ⟨fid, hlookup, ?_, hrest⟩
  rw [ask, hlookup]
  rfl

/-- **`save_new_file`** commits when it finds the parent. -/
theorem saveNewFile_done {now r : ℤ} {path : Text} {file : FileRecord}
    (hrun : run serveRedis (saveNewFile now path file) db = .done r db') :
    (db' = db ∧ ∃ fid < 0, ask (lookupFid (parentPath path)) db = some fid) ∨
      ∃ f : ℕ, ask (lookupFid (parentPath path)) db = some (f : ℤ) ∧ f < 2147483648 ∧
        db' = applyAll (saveWrites now f (entryName path) file) db := by
  obtain ⟨fid, hlookup, hask, hrest⟩ := lookup_bind_done hrun
  by_cases hneg : fid < 0
  · rw [if_pos hneg, Prog.pure_eq, run_ret, Outcome.done.injEq] at hrest
    exact .inl ⟨hrest.2.symm, fid, hneg, hask⟩
  · obtain ⟨ns, k, rfl, hk⟩ := named_of_lookup hlookup hneg
    rw [if_neg hneg] at hrest
    have hend : Outcome.done 0 (applyAll (saveWrites now k (entryName path) file) db) =
        .done r db' := hrest
    rw [Outcome.done.injEq] at hend
    exact .inr ⟨k, hask, namedFid_lt hk, hend.2.symm⟩

/-- **`rename`** moves an entry within its directory, to a fid that was found. -/
theorem rename_done {r : ℤ} {oldpath newpath : Text}
    (hrun : run serveRedis (rename oldpath newpath) db = .done r db') :
    db' = db ∨ ∃ (ns : List Text) (k f : ℕ), namedFid db ns = some k ∧ f < 2147483648 ∧
      db' = applyAll (renameWrites f (entryName oldpath) f (entryName newpath) k) db := by
  obtain ⟨fid, hlookup, -, h₁⟩ := lookup_bind_done hrun
  by_cases hneg : fid < 0
  · rw [if_pos hneg, Prog.pure_eq, run_ret, Outcome.done.injEq] at h₁
    exact .inl h₁.2.symm
  obtain ⟨ns, k, rfl, hk⟩ := named_of_lookup hlookup hneg
  rw [if_neg hneg] at h₁
  obtain ⟨old, hold, hask, h₂⟩ := lookup_bind_done h₁
  by_cases hneg₁ : old < 0
  · rw [if_pos hneg₁, Prog.pure_eq, run_ret, Outcome.done.injEq] at h₂
    exact .inl h₂.2.symm
  obtain ⟨ns', f, rfl, hf⟩ := named_of_lookup hold hneg₁
  rw [if_neg hneg₁] at h₂
  -- the second lookup asks the same question again
  obtain ⟨new, -, hask', h₃⟩ := lookup_bind_done h₂
  rw [hask, Option.some.injEq] at hask'
  rw [← hask', if_neg hneg₁] at h₃
  have hend : Outcome.done 0 (applyAll
      (renameWrites f (entryName oldpath) f (entryName newpath) k) db) = .done r db' := h₃
  rw [Outcome.done.injEq] at hend
  exact .inr ⟨ns, k, f, hk, namedFid_lt hf, hend.2.symm⟩

/-! ### The lines -/

/-- `MKD` takes the place of no node the mask does not cover, and `RMD` removes no such node. -/
structure LineOk (m : ℕ) (w : World) (nCmd : Option Cmd) (pszCmdArg : Option Text) : Prop where
  mkd : nCmd = some .mkd ∨ nCmd = some .xmkd → Granted m CREATEDIR → ∀ arg path,
    pszCmdArg = some arg → w.client.buildPath (some arg) = some path →
    ask (stat path) w.db = some none → Vacant (CoversLoss m) w.db path
  rmd : nCmd = some .rmd ∨ nCmd = some .xrmd → Granted m DELETEDIR → ∀ arg path (k : ℕ),
    pszCmdArg = some arg → w.client.buildPath (some arg) = some path →
    ask (lookupFid path) w.db = some (k : ℤ) → w.db.dirent k = ∅ → CoversLoss m (w.db.stat k)

/-- A path the session builds is not bare, if `stat` of it ends. -/
theorem addresses_of_built {c : Client} {arg : Option Text} {path : Text}
    (hpath : c.buildPath arg = some path) :
    BarePath path ∨ ∃ names parent entry, Addresses path names parent entry := by
  unfold Client.buildPath Client.buildPathVirtual at hpath
  cases hu : c.pUser with
  | none => rw [hu] at hpath; exact absurd hpath (by simp)
  | some u =>
      rw [hu] at hpath
      exact addresses_or_bare hpath

/-- The root has no entry of its own, and what has entries is behind it. -/
theorem coversLoss_behind {path : Text} {names parent : List Text} {k₀ : ℕ}
    (ha : Addresses path names parent entry) (hk₀ : namedFid db names = some k₀)
    (hf : namedFid db parent = some f) (hcovers : CoversLoss m (db.stat k₀))
    (hempty : db.dirent k₀ = ∅) (rest : List Text) (k : ℕ)
    (hwalk : walk (child db) f (entry :: rest) = some k) : CoversLoss m (db.stat k) := by
  rcases ha.shape with ⟨rfl, -⟩ | ⟨rfl, rfl, -⟩
  · have hself := (namedFid_eq_some.mp hk₀).1
    rw [walk_append, (namedFid_eq_some.mp hf).1, Option.bind_some] at hself
    have hall : walk (child db) f ([entry] ++ rest) = some k := hwalk
    rw [walk_append, hself, Option.bind_some] at hall
    cases rest with
    | nil =>
        rw [walk_nil, Option.some.injEq] at hall
        rwa [← hall]
    | cons n rest =>
        rw [walk_cons, child_eq_none_of_empty hempty] at hall
        exact absurd hall (by simp)
  · -- the root without entries has nothing behind it
    have hroot : k₀ = f := by
      rw [hk₀, Option.some.injEq] at hf
      exact hf
    rw [walk_cons, ← hroot, child_eq_none_of_empty hempty] at hwalk
    exact absurd hwalk (by simp)

/-- A command that sends the answer of a function of `redis_vfs`: the function is called on a path
that addresses an entry. -/
theorem reply_covered {p : Option Text → RedisProg Reply} {refusal : Reply} {arg : Text} {u : Unit}
    (hnone : p none = .ret refusal)
    (hbare : ∀ path db r db', BarePath path → run serveRedis (p (some path)) db ≠ .done r db')
    (hsome : ∀ path names parent entry r db', w.client.buildPath (some arg) = some path →
      Addresses path names parent entry → run serveRedis (p (some path)) w.db = .done r db' →
      Covered m w.db db')
    (h : Does env (redis (p (w.client.buildPath (some arg))) >>= fun reply => sendReply reply) w u w'
      cs) : Covered m w.db w'.db := by
  obtain ⟨reply, w₁, cs₁, cs₂, hredis, hreply, rfl⟩ := h.of_bind
  obtain ⟨rfl, -⟩ := hreply.of_reply
  obtain ⟨hrun, -, -⟩ := hredis.of_redis
  show Covered m w.db w₁.db
  cases hpath : w.client.buildPath (some arg) with
  | none =>
      rw [hpath, hnone, run_ret, Outcome.done.injEq] at hrun
      rw [← hrun.2]
      exact .of_same rfl rfl
  | some path =>
      rw [hpath] at hrun
      obtain hbare' | ⟨names, parent, entry, ha⟩ := addresses_of_built hpath
      · exact absurd hrun (hbare _ _ _ _ hbare')
      · exact hsome path names parent entry reply w₁.db hpath ha hrun

theorem mkd_covered {nCmd : Option Cmd} {arg : Text} {u : Unit}
    (hcmd : nCmd = some .mkd ∨ nCmd = some .xmkd) (hm : Granted m CREATEDIR)
    (hok : LineOk m w nCmd (some arg)) (h : Does env (shellMkd arg) w u w' cs) :
    Covered m w.db w'.db := by
  have h₁ := h.of_client.of_sys rfl
  cases hu : w.client.pUser with
  | none =>
      rw [hu] at h₁
      obtain ⟨rfl, -⟩ := h₁.of_reply
      exact .of_same rfl rfl
  | some user =>
      rw [hu] at h₁
      refine reply_covered (p := fun path => cmdMkd (env w.clock .time) path user.uid user.gid)
        (w := { w with clock := w.clock + 1 }) rfl (fun _ _ _ _ hbare => bare_not_done hbare) ?_ h₁
      intro path names parent entry r db' hpath ha hrun
      obtain ⟨-, rfl | rfl⟩ | ⟨-, hstat, f, hf, rfl⟩ := cmdMkd_ends ha hrun
      · exact .of_same rfl rfl
      · exact .of_same rfl rfl
      · obtain ⟨hfree, hbehind⟩ := hok.mkd hcmd hm arg path rfl hpath hstat f
          ((ask_lookupFid_natCast ha.lookup_parent).mpr hf)
        rw [ha.entry_eq] at hbehind
        exact covered_mkdir hm hfree hbehind (namedFid_lt hf)

theorem rmd_covered {nCmd : Option Cmd} {arg : Text} {u : Unit}
    (hcmd : nCmd = some .rmd ∨ nCmd = some .xrmd) (hm : Granted m DELETEDIR)
    (hok : LineOk m w nCmd (some arg)) (h : Does env (shellRmd arg) w u w' cs) :
    Covered m w.db w'.db := by
  refine reply_covered (p := cmdRmd) rfl (fun _ _ _ _ hbare => bare_not_done hbare) ?_ h.of_client
  intro path names parent entry r db' hpath ha hrun
  obtain ⟨-, rfl⟩ | ⟨-, k, f, hk, -, hempty, hf, rfl⟩ := cmdRmd_ends ha hrun
  · exact .of_same rfl rfl
  · have hcovers := hok.rmd hcmd hm arg path k rfl hpath
      ((ask_lookupFid_natCast ha.lookup_names).mpr hk) hempty
    refine covered_dropEntry k ?_ ?_ fun rest j hwalk _ =>
      coversLoss_behind ha hk hf hcovers hempty rest j hwalk
    · rw [rmdirWrites_dirent, u32_of_namedFid hf]
    · rw [rmdirWrites_stat, u32_of_namedFid hk]

theorem dele_covered {arg : Text} {u : Unit} (hm : Granted m DELETEFILE)
    (h : Does env (shellDele arg) w u w' cs) : Covered m w.db w'.db := by
  refine reply_covered (p := cmdDele) rfl (fun _ _ _ _ hbare => bare_not_done hbare) ?_ h.of_client
  intro path names parent entry r db' hpath ha hrun
  obtain ⟨-, rfl⟩ | ⟨-, k, f, hk, -, -, hf, rfl⟩ := cmdDele_ends ha hrun
  · exact .of_same rfl rfl
  · have hbehind : ∀ rest j, walk (child w.db) f (entry :: rest) = some j → j < 2147483648 →
        CoversLoss m (w.db.stat j) := fun _ j _ _ => .of_deleteFile hm _
    refine covered_dropEntry k ?_ ?_ hbehind
    · rw [removeWrites_dirent, u32_of_namedFid hf]
    · rw [removeWrites_stat, u32_of_namedFid hk]

/-- `RNTO` renames the path in the buffer, if there is one. -/
theorem rnto_covered {arg : Text} {u : Unit}
    (hm : w.client.szRenameFromPath = [] ∨ Granted m DELETEFILE)
    (h : Does env (shellRnto arg) w u w' cs) : Covered m w.db w'.db := by
  obtain ⟨reply, w₁, cs₁, cs₂, hrnto, hrest, rfl⟩ := h.of_client.of_bind
  have hend : w'.db = w₁.db := by
    have hrun := congrArg (fun o => o.state.db) hrest.ends
    exact hrun.symm
  obtain ⟨hrun, -, -⟩ := hrnto.of_redis
  rw [hend]
  cases hpath : w.client.buildPath (some arg) with
  | none =>
      rw [hpath, cmdRnto, run_ret, Outcome.done.injEq] at hrun
      rw [← hrun.2]
      exact .of_same rfl rfl
  | some path =>
      rw [hpath] at hrun
      obtain ⟨r, db₁, hren, hret⟩ := (run_bind_done _).mp hrun
      have hdb : db₁ = w₁.db := by
        by_cases hr : r = 0
        · rw [if_pos hr, Prog.pure_eq, run_ret, Outcome.done.injEq] at hret
          exact hret.2
        · rw [if_neg hr, Prog.pure_eq, run_ret, Outcome.done.injEq] at hret
          exact hret.2
      obtain hempty | hm := hm
      · rw [hempty] at hren
        exact absurd hren (by simp [rename, lookupFid, lookupTokens])
      · rw [← hdb]
        obtain rfl | ⟨ns, k, f, hk, hf, rfl⟩ := rename_done hren
        · exact .of_same rfl rfl
        · have hfu : u32 (f : ℤ) = f := u32_natCast (by omega)
          refine covered_rename hm hk (?_ : _ = setEntry (dropEntry _ f (entryName w.client.szRenameFromPath)) f
            (entryName path) _) rfl
          rw [renameWrites_dirent, hfu]

/-- A command behind its privilege and its argument. -/
theorem gated_covered {ucPriv : ℕ} {refusal : String} {body : Text → CommandProg Unit}
    {pszCmdArg : Option Text} {u : Unit}
    (h : Does env (withPrivilege ucPriv (withArg pszCmdArg refusal body)) w u w' cs)
    (hbody : ∀ arg, pszCmdArg = some arg → w.client.checkPrivileges ucPriv = true →
      Does env (body arg) w u w' cs → Covered m w.db w'.db) : Covered m w.db w'.db := by
  have h₁ := h.of_client
  by_cases hpriv : w.client.checkPrivileges ucPriv = true
  · rw [if_pos hpriv] at h₁
    cases harg : pszCmdArg with
    | none =>
        rw [harg] at h₁
        obtain ⟨rfl, -⟩ := h₁.of_reply
        exact .of_same rfl rfl
    | some arg =>
        rw [harg] at h₁
        exact hbody arg harg hpriv h₁
  · rw [if_neg hpriv] at h₁
    obtain ⟨rfl, -⟩ := h₁.of_reply
    exact .of_same rfl rfl

theorem granted_of_check {ucPriv : ℕ} {user : UserEntry} (huser : w.client.pUser = some user)
    (hpriv : w.client.checkPrivileges ucPriv = true) : Granted user.ucPrivileges ucPriv := by
  rw [Client.checkPrivileges, huser, Option.any_some, Bool.and_eq_true, beq_iff_eq] at hpriv
  exact hpriv.2

/-- A line that is not about files leaves the tree alone. -/
theorem line_idle {nCmd : Option Cmd} {pszCmdArg : Option Text} {next : Next}
    (hd : Part.database ∉ partsOf nCmd)
    (hrun : run (serveShell env) (dispatch cfg nCmd pszCmdArg) w = .done next w') :
    w'.db.dirent = w.db.dirent ∧ w'.db.stat = w.db.stat := by
  let Q : RedisOp → Prop := fun o =>
    ∀ db, (serveRedis o db).2.dirent = db.dirent ∧ (serveRedis o db).2.stat = db.stat
  have hother : ∀ o : RedisOp, o.part ≠ some .database → Q o := by
    intro o ho db
    cases o with
    | multiExec ws => exact absurd rfl ho
    | _ => exact ⟨rfl, rfl⟩
  have hevery : Every (ShellOnRedis Q) (dispatch cfg nCmd pszCmdArg) := by
    refine (dispatch_within cfg nCmd pszCmdArg).mono fun o ho => ?_
    cases o with
    | command o => exact onRedis_of_within hother hd ho
    | login f => trivial
  have hdb := run_shell_db (R := fun db db' => db'.dirent = db.dirent ∧ db'.stat = db.stat)
    (fun _ => ⟨rfl, rfl⟩) (fun _ _ _ h₁ h₂ => ⟨h₂.1.trans h₁.1, h₂.2.trans h₁.2⟩)
    (fun o ho db => ho db) hevery env w
  rw [hrun] at hdb
  exact hdb

/-- The path in the buffer was put there under the privilege to rename it. -/
def RenameInv (w : World) : Prop :=
  w.client.szRenameFromPath = [] ∨ w.client.checkPrivileges DELETEFILE = true

/-- **What a line does** is covered by the mask of its session. -/
theorem line_covered {nCmd : Option Cmd} {pszCmdArg : Option Text} {next : Next} {user : UserEntry}
    (hlogged : w.client.bIsLogged = true) (huser : w.client.pUser = some user)
    (hinv : RenameInv w) (hok : LineOk user.ucPrivileges w nCmd pszCmdArg)
    (hrun : run (serveShell env) (dispatch cfg nCmd pszCmdArg) w = .done next w') :
    Covered user.ucPrivileges w.db w'.db := by
  have hgranted : ∀ {ucPriv}, w.client.checkPrivileges ucPriv = true →
      Granted user.ucPrivileges ucPriv := granted_of_check huser
  by_cases hd : Part.database ∈ partsOf nCmd
  · cases nCmd with
    | none => exact absurd hd (by simp [partsOf])
    | some nCmd =>
        have hnot : nCmd ∉ [Cmd.quit, .user, .pass, .cwd, .xcwd, .cdup, .xcup] := by
          intro hmem
          cases nCmd <;> simp_all [partsOf, Cmd.parts]
        have hdoes := does_of_dispatch hnot hlogged hrun
        generalize lineCalls env _ w = cs at hdoes
        have hmade : nCmd = .mkd ∨ nCmd = .xmkd → Does env (withPrivilege CREATEDIR
            (withArg pszCmdArg "Syntax error in arguments." shellMkd)) w () w' cs →
            Covered user.ucPrivileges w.db w'.db := by
          intro hcmd h
          refine gated_covered h fun arg harg hpriv h₁ => ?_
          rw [harg] at hok
          exact mkd_covered (hcmd.imp (congrArg some) (congrArg some)) (hgranted hpriv) hok h₁
        have hremoved : nCmd = .rmd ∨ nCmd = .xrmd → Does env (withPrivilege DELETEDIR
            (withArg pszCmdArg "Syntax error in arguments." shellRmd)) w () w' cs →
            Covered user.ucPrivileges w.db w'.db := by
          intro hcmd h
          refine gated_covered h fun arg harg hpriv h₁ => ?_
          rw [harg] at hok
          exact rmd_covered (hcmd.imp (congrArg some) (congrArg some)) (hgranted hpriv) hok h₁
        cases nCmd with
        | mkd => exact hmade (by simp) hdoes
        | xmkd => exact hmade (by simp) hdoes
        | rmd => exact hremoved (by simp) hdoes
        | xrmd => exact hremoved (by simp) hdoes
        | dele => exact gated_covered hdoes fun arg _ hpriv h₁ => dele_covered (hgranted hpriv) h₁
        | rnto =>
            cases pszCmdArg with
            | none =>
                obtain ⟨rfl, -⟩ := Does.of_reply hdoes
                exact .of_same rfl rfl
            | some arg => exact rnto_covered (hinv.imp_right hgranted) hdoes
        | _ => simp [partsOf, Cmd.parts, resetParts] at hd
  · obtain ⟨hdirent, hstat⟩ := line_idle hd hrun
    exact .of_same hdirent hstat

/-! ### The transfers -/

/-- The slave answers that it has stored a file. -/
def RpcResult.Recorded : RpcResult StorRetVal → Prop
  | .reply retval => 0 ≤ retval.size
  | _ => False

/-- The call is an upload that the slave has stored. -/
def Call.Stored : Call → Prop
  | ⟨.activeStoreTransfer _ _ _, answer⟩ => RpcResult.Recorded answer
  | ⟨.pasvStoreTransfer _ _ _, answer⟩ => RpcResult.Recorded answer
  | _ => False

/-- An upload that is stored takes the place of no directory that the mask may not remove. -/
def UploadOk (cfg : Config) (m : ℕ) (env : Env) (w : World) : Prop :=
  (∃ c ∈ calls env (storeTransfer cfg) w, c.Stored) →
    Vacant (fun h => IsDir h → Granted m DELETEDIR ∨ Granted m DELETEFILE) w.db
      w.client.CurrentTransfer.szPath

theorem ask_lookupFid_congr (h : db'.dirent = db.dirent) (path : Text) :
    ask (lookupFid path) db' = ask (lookupFid path) db := by
  unfold ask lookupFid
  split_ifs
  · rfl
  · cases lookupTokens path with
    | none => rfl
    | some ts =>
        show (run serveRedis (lookupWalk 0 ts) db').value = (run serveRedis (lookupWalk 0 ts) db).value
        rw [run_lookupWalk, run_lookupWalk, lookupResult_congr h]
        cases lookupResult db 0 ts <;> rfl

theorem UploadEnd.covered {slave : SlaveInfo} {answer : RpcResult StorRetVal} {msg : Option Reply}
    (h : UploadEnd db.nextFid slave w w' answer msg) (hdirent : w.db.dirent = db.dirent)
    (hstat : w.db.stat = db.stat)
    (hok : answer.Recorded → Vacant (CoversLoss m) db w.client.CurrentTransfer.szPath) :
    Covered m db w'.db := by
  have hsame : w'.db = w.db → Covered m db w'.db := by
    intro hdb
    rw [hdb]
    exact .of_same hdirent hstat
  cases h with
  | exception _ hdb _ => exact hsame hdb
  | unrecorded _ _ _ hdb _ => exact hsame hdb
  | recorded retval user now r hsize _ hrun _ _ =>
      obtain ⟨hdb, -⟩ | ⟨f, hask, hf, hdb⟩ := saveNewFile_done hrun
      · exact hsame hdb
      · rw [ask_lookupFid_congr hdirent] at hask
        obtain ⟨hfree, hbehind⟩ := hok hsize f hask
        rw [← child_congr hdirent, ← hstat] at hbehind
        rw [← hdirent] at hfree
        rw [hdb]
        exact (covered_save hfree hbehind hf).congr hdirent.symm hstat.symm

/-- **What an upload does** is covered by a mask with `WRITEFILE`, under its condition. -/
theorem StoreTurn.covered (h : StoreTurn cfg w w' cs)
    (hok : (∃ c ∈ cs, c.Stored) → Vacant (CoversLoss m) w.db w.client.CurrentTransfer.szPath) :
    Covered m w.db w'.db := by
  have hdrawn : w'.db = w.db.incrFid → Covered m w.db w'.db := by
    intro hdb
    rw [hdb]
    exact .of_same rfl rfl
  cases h with
  | unconnected _ _ hdb _ => exact hdrawn hdb
  | noSlaves _ _ _ hdb _ => exact hdrawn hdb
  | unnamed _ _ _ _ hdb _ => exact hdrawn hdb
  | active _ _ hclient hdb _ hend _ hdb' _ =>
      rw [hdb']
      refine hend.covered (by rw [hdb]; rfl) (by rw [hdb]; rfl) fun hrec => ?_
      rw [hclient]
      exact hok ⟨_, List.mem_singleton_self _, hrec⟩
  | passive _ _ hclient hdb _ hend _ hdb' _ =>
      rw [hdb']
      refine hend.covered (by rw [hdb]; rfl) (by rw [hdb]; rfl) fun hrec => ?_
      rw [hclient]
      exact hok ⟨_, List.mem_singleton_self _, hrec⟩

/-- A thread that is not an upload leaves the tree alone. -/
theorem body_idle {thread : TransferThread} {u : Unit} (hthread : thread ≠ .store)
    (hrun : run (serveCommand env) (thread.body cfg) w = .done u w') :
    w'.db.dirent = w.db.dirent ∧ w'.db.stat = w.db.stat := by
  have hbody : Every (Within retrieveParts) (thread.body cfg) := by
    cases thread with
    | list => exact within_listTransfer
    | retrieve => exact within_retrieveTransfer cfg
    | store => exact absurd rfl hthread
  have hkeep := hbody.run_keeps (serveCommand env) (fun w => (w.db.dirent, w.db.stat)) (fun o ho s => by
    cases o with
    | redis o =>
        cases o with
        | multiExec ws => exact absurd (ho _ rfl) (by decide)
        | _ => rfl
    | _ => rfl) w
  rw [hrun, Prod.mk.injEq] at hkeep
  exact hkeep

/-- The end of a thread leaves the database alone. -/
theorem thread_ends {p : CommandProg Unit}
    (hrun : run (serveCommand env) (p >>= fun _ => endTransfer) w = .done () w') :
    ∃ w₁, run (serveCommand env) p w = .done () w₁ ∧ w'.db = w₁.db := by
  obtain ⟨u, w₁, hp, hend⟩ := (run_bind_done _).mp hrun
  have hdb := run_within_db (within_resetDataConnection false) (by decide) (by decide) env w₁
  have hend' : run (serveCommand env) (resetDataConnection false) w₁ = .done () w' := hend
  rw [hend'] at hdb
  exact ⟨w₁, hp, hdb⟩

/-- **What a transfer does** is covered by a mask that may start it. -/
theorem transfer_covered {thread : TransferThread}
    (hrun : run (serveCommand env) (thread.body cfg >>= fun _ => endTransfer) w = .done () w')
    (hm : thread = .store → Granted m WRITEFILE) (hok : thread = .store → UploadOk cfg m env w) :
    Covered m w.db w'.db := by
  obtain ⟨w₁, hbody, hdb⟩ := thread_ends hrun
  rw [hdb]
  by_cases hthread : thread = .store
  · have hgranted := hm hthread
    have hupload := hok hthread
    subst hthread
    have hdoes : Does env (storeTransfer cfg) w () w₁ _ := ⟨hbody, rfl⟩
    refine (storeTransfer_does hdoes).covered fun hstored => ?_
    exact (hupload hstored).mono fun r hdir => ⟨fun _ => .inr hgranted, hdir⟩
  · obtain ⟨hdirent, hstat⟩ := body_idle hthread hbody
    exact .of_same hdirent hstat

/-- A line that starts an upload has the privilege for it. -/
theorem granted_of_starts {line : Text} {next : Next} {user : UserEntry}
    (hlogged : w.client.bIsLogged = true) (huser : w.client.pUser = some user)
    (hrun : run (serveShell env) (dispatch cfg (parseLine line).1 (parseLine line).2) w =
      .done next w') (hstart : Starts env cfg line w .store) :
    Granted user.ucPrivileges WRITEFILE := by
  have hstarted := (dataTurn_of_run hrun).of_started hstart
  unfold Starts at hstart
  generalize (parseLine line).2 = pszCmdArg at hrun hstart hstarted
  generalize hnCmd : (parseLine line).1 = nCmd at hrun hstart hstarted
  generalize hcs : lineCalls env (dispatch cfg nCmd pszCmdArg) w = cs at hstart hstarted
  have hgated : ∀ (nCmd' : Cmd) (cmd : UploadCmd), nCmd = some nCmd' →
      nCmd' ∉ [Cmd.quit, .user, .pass, .cwd, .xcwd, .cdup, .xcup] →
      shellCmd cfg nCmd' pszCmdArg = withPrivilege WRITEFILE (discard (cmdStore cmd pszCmdArg)) →
      Granted user.ucPrivileges WRITEFILE := by
    rintro nCmd' cmd rfl hnot hshell
    have hdoes := does_of_dispatch hnot hlogged hrun
    rw [hshell, hcs] at hdoes
    obtain ⟨-, rfl⟩ | ⟨hpriv, -⟩ := withPrivilege_does hdoes
    · exact absurd hstart (by simp)
    · exact granted_of_check huser hpriv
  cases hstarted with
  | store hcmd _ _ _ =>
      obtain rfl | rfl | rfl := hcmd
      · exact hgated _ .stor rfl (by simp) rfl
      · exact hgated _ .appe rfl (by simp) rfl
      · exact hgated _ .stou rfl (by simp) rfl

/-! ### The session -/

theorem RenameInv.congr (h : RenameInv w) (hlogin : w'.client.bIsLogged = w.client.bIsLogged)
    (hpriv : (w'.client.pUser.map UserEntry.ucPrivileges) = w.client.pUser.map UserEntry.ucPrivileges)
    (hpath : w'.client.szRenameFromPath = w.client.szRenameFromPath) : RenameInv w' := by
  have hcheck : ∀ c : Client, c.checkPrivileges DELETEFILE = (c.bIsLogged &&
      (c.pUser.map UserEntry.ucPrivileges).any fun m => DELETEFILE &&& m == DELETEFILE) := by
    intro c
    rw [Client.checkPrivileges]
    cases c.pUser <;> rfl
  unfold RenameInv at h ⊢
  rw [hcheck, hlogin, hpriv, ← hcheck, hpath]
  exact h

/-- A session that is not logged in has nothing to rename. -/
theorem RenameInv.of_gated (h : RenameInv w) (hout : w.client.bIsLogged = false) :
    w.client.szRenameFromPath = [] := by
  obtain hempty | hpriv := h
  · exact hempty
  · rw [Client.checkPrivileges, hout, Bool.false_and] at hpriv
    exact absurd hpriv (by simp)

/-- `USER` empties the buffer of a session that is logged in. -/
theorem user_turn {pszCmdArg : Option Text} {next : Next}
    (hrun : run (serveShell env) (dispatch cfg (some .user) pszCmdArg) w = .done next w') :
    w'.client.szRenameFromPath = if w.client.bIsLogged then [] else w.client.szRenameFromPath := by
  have hkept : ∀ p : ShellProg Unit, Every (ShellWithin []) p →
      run (serveShell env) (p >>= fun _ => .ret Next.continue)
        { w with client := if w.client.bIsLogged then w.client.logOut else w.client } =
          .done next w' →
      w'.client.szRenameFromPath =
        if w.client.bIsLogged then [] else w.client.szRenameFromPath := by
    intro p hp hend
    have hsame := run_shell_same (x := .rename) (hp.bind fun _ => every_ret Next.continue)
      (by simp) env
      { w with client := if w.client.bIsLogged then w.client.logOut else w.client }
    have hstate := congrArg (fun o => o.state.client.szRenameFromPath) hend
    have hpath : w'.client.szRenameFromPath =
        (if w.client.bIsLogged then w.client.logOut else w.client).szRenameFromPath :=
      hstate.symm.trans hsame
    rw [hpath]
    split_ifs <;> rfl
  cases pszCmdArg with
  | none => exact hkept _ (within_command (within_sendReply _)) hrun
  | some szLogin => exact hkept _ (within_selectUser szLogin) hrun

/-- `RNTO` empties the buffer or does nothing. -/
theorem rnto_turn {pszCmdArg : Option Text} {next : Next}
    (hrun : run (serveShell env) (dispatch cfg (some .rnto) pszCmdArg) w = .done next w') :
    w'.client.szRenameFromPath = [] ∨ w'.client = w.client := by
  cases hlogged : w.client.bIsLogged with
  | false => exact .inr (turn_gated (by simp) (by simp) (by simp) hlogged hrun).1
  | true =>
      cases pszCmdArg with
      | none =>
          rw [dispatch_logged (by simp) (by simp) (by simp) (by simp) (by simp) hlogged] at hrun
          have hclient := congrArg (fun o => o.state.client) hrun
          exact .inr hclient.symm
      | some arg =>
          rw [run_rnto hlogged] at hrun
          unfold renameFrom at hrun
          rw [run_client_bind, run_bind] at hrun
          cases hr : run (serveCommand env)
              (redis (cmdRnto (w.client.buildPath (some arg)) w.client.szRenameFromPath)) w with
          | stopped why w₁ => rw [hr] at hrun; exact absurd hrun (by simp)
          | done reply w₁ =>
              rw [hr] at hrun
              have hclient := congrArg (fun o => o.state.client.szRenameFromPath) hrun
              exact .inl hclient.symm

/-- A line keeps the invariant. -/
theorem RenameInv.turn {line : Text} {next : Next} (h : RenameInv w)
    (hrun : run (serveShell env) (dispatch cfg (parseLine line).1 (parseLine line).2) w =
      .done next w') : RenameInv w' := by
  have hturn := turn_of_run hrun
  by_cases huser : (parseLine line).1 = some .user
  · rw [huser] at hrun
    have hpath := user_turn hrun
    refine .inl ?_
    rw [hpath]
    split_ifs with hlogged
    · rfl
    · exact h.of_gated (by simpa using hlogged)
  by_cases hrnto : (parseLine line).1 = some .rnto
  · rw [hrnto] at hrun
    obtain hempty | hsame := rnto_turn hrun
    · exact .inl hempty
    · exact h.congr (by rw [hsame]) (by rw [hsame]) (by rw [hsame])
  · cases hsel : Received.selects cfg ⟨line, w⟩ with
    | some path =>
        obtain ⟨-, -, hpriv⟩ := selects_turn hrun hsel
        rw [Received.selects] at hsel
        split_ifs at hsel with hrnfr
        have hcmd : (parseLine line).1 = some .rnfr := hrnfr.1
        rw [hcmd] at hturn
        generalize hnCmd : some Cmd.rnfr = nCmd at hturn
        generalize (parseLine line).2 = pszCmdArg at hturn
        cases hturn with
        | idle _ _ _ hlogin =>
            refine .inr ?_
            have hcheck : w'.client.checkPrivileges DELETEFILE =
                w.client.checkPrivileges DELETEFILE := by
              simp only [Client.checkPrivileges, hlogin]
            rw [hcheck]
            exact hpriv
        | cwd hcwd _ _ _ =>
            rw [Option.some.injEq] at hnCmd
            rw [← hnCmd] at hcwd
            exact absurd hcwd (by simp)
        | cdup hcdup _ _ =>
            rw [Option.some.injEq] at hnCmd
            rw [← hnCmd] at hcdup
            exact absurd hcdup (by simp)
        | logout _ => simp at hnCmd
        | user _ _ _ => simp at hnCmd
        | passIn _ _ => simp at hnCmd
        | passOut _ _ => simp at hnCmd
    | none =>
        have hpath := keeps_turn hrun (fun hforget => hforget.elim huser hrnto) hsel
        generalize (parseLine line).1 = nCmd at hturn huser
        generalize (parseLine line).2 = pszCmdArg at hturn
        cases hturn with
        | idle _ _ _ hlogin => exact h.congr (by rw [hlogin]) (by rw [hlogin]) hpath
        | cwd _ _ _ hlogin => exact h.congr (by rw [hlogin]) (by rw [hlogin]) hpath
        | cdup _ _ hlogin => exact h.congr (by rw [hlogin]) (by rw [hlogin]) hpath
        | logout _ => exact absurd rfl huser
        | user _ _ _ => exact absurd rfl huser
        | passIn hpasses _ =>
            rw [Client.passes, Bool.and_eq_true, Bool.not_eq_true'] at hpasses
            exact .inl (hpath.trans (h.of_gated hpasses.1))
        | passOut _ hlogin => exact h.congr (by rw [hlogin]) (by rw [hlogin]) hpath

/-- **In every session** the path to rename was selected under the privilege. -/
theorem CommandRun.renameInv {hist : List Received} (hrun : CommandRun cfg hist w) :
    RenameInv w := by
  induction hrun with
  | connect _ hcommand => exact .inl (congrArg CommandState.szRenameFromPath hcommand)
  | turn env line _ hturn ih => exact ih.turn hturn
  | others _ hlogin hpath ih => exact ih.congr (by rw [hlogin]) (by rw [hlogin]) hpath

/-- What a line of a session does is covered by its mask, and so is what the transfer does that the
line starts, whatever the client entry and the database are when it runs. -/
structure PrivilegesCover (cfg : Config) (w : World) (m : ℕ)
    (lineOk : Option Cmd → Option Text → Prop) (uploadOk : Env → World → Prop) : Prop where
  line : ∀ env line next w',
    run (serveShell env) (dispatch cfg (parseLine line).1 (parseLine line).2) w = .done next w' →
    lineOk (parseLine line).1 (parseLine line).2 → Covered m w.db w'.db
  transfer : ∀ env line next w' thread,
    run (serveShell env) (dispatch cfg (parseLine line).1 (parseLine line).2) w = .done next w' →
    Starts env cfg line w thread → ∀ env₁ w₁ w₂,
      run (serveCommand env₁) (thread.body cfg >>= fun _ => endTransfer) w₁ = .done () w₂ →
      (thread = .store → uploadOk env₁ w₁) → Covered m w₁.db w₂.db

/-- **Privileges cover** what a session does to the tree, if its `MKD`, `RMD` and uploads meet no
node that its mask does not cover. -/
theorem privileges_cover {hist : List Received} {user : UserEntry} (hrun : CommandRun cfg hist w)
    (hlogged : w.client.bIsLogged = true) (huser : w.client.pUser = some user) :
    PrivilegesCover cfg w user.ucPrivileges (LineOk user.ucPrivileges w)
      (UploadOk cfg user.ucPrivileges) := by
  refine ⟨fun env line next w' hturn hok => ?_, ?_⟩
  · exact line_covered hlogged huser hrun.renameInv hok hturn
  · intro env line next w' thread hturn hstart env₁ w₁ w₂ hbody hok
    refine transfer_covered hbody (fun hstore => ?_) hok
    rw [hstore] at hstart
    exact granted_of_starts hlogged huser hturn hstart

/-! ### A user who may remove directories -/

/-- An account whose only privilege is `DELETEDIR`. -/
def keeperRecord : UserHash := { guestRecord ['/'] with privileges := " ".toList }

def keeperUser : UserEntry := (keeperRecord.toEntry "keeper".toList ' ').counted

/-- The session of the account after `USER keeper`. -/
def keeperWorld : World where
  db := { twoFiles with username := fun _ => some keeperRecord }
  client := { pUser := some keeperUser, bIsLogged := true }
  replies := [.line 230 "User Logged In."]
  clock := 1

theorem commandRun_keeper : ∃ hist, CommandRun {} hist keeperWorld := by
  have huser : parseLine "USER keeper".toList = (some .user, some "keeper".toList) := by decide
  have hconnect : CommandRun {} [] ⟨keeperWorld.db, {}, [], 0⟩ := .connect rfl rfl
  exact ⟨_, hconnect.turn .willing "USER keeper".toList (by rw [huser]; rfl)⟩

theorem privileges_cover_keeper : PrivilegesCover {} keeperWorld 0x20 (LineOk 0x20 keeperWorld)
    (UploadOk {} 0x20) := by
  obtain ⟨hist, hrun⟩ := commandRun_keeper
  exact privileges_cover hrun rfl rfl

/-- **`RMD` of a regular file** removes it under `DELETEDIR`. -/
theorem rmd_removes_file : ¬ ∀ cfg hist w user, CommandRun cfg hist w →
    w.client.bIsLogged = true → w.client.pUser = some user →
    PrivilegesCover cfg w user.ucPrivileges (fun _ _ => True) (fun _ _ => True) := by
  intro hall
  obtain ⟨hist, hrun⟩ := commandRun_keeper
  have hcover := hall {} hist keeperWorld keeperUser hrun rfl rfl
  have hline : parseLine "RMD /a".toList = (some .rmd, some "/a".toList) := by decide
  have hbuild : keeperWorld.client.buildPath (some "/a".toList) = some "/a".toList :=
    buildPath_root canonical_a (by decide) _
  have hturn : run (serveShell .willing) (dispatch {} (some .rmd) (some "/a".toList)) keeperWorld =
      .done .continue { keeperWorld with
        db := applyAll (rmdirWrites 0 ['a'] 1) keeperWorld.db
        replies := keeperWorld.replies ++ [.line 250 "Directory deleted successfully."] } := by
    show run _ (command (redis (cmdRmd (keeperWorld.client.buildPath _)) >>= _) >>= _) _ = _
    rw [hbuild]
    rfl
  have hcovered := hcover.line .willing "RMD /a".toList _ _ (by rw [hline]; exact hturn) trivial
  have hlost := hcovered.lost [['a']] 1 (by decide) (by decide)
  obtain hm | hm := hlost.file (by unfold IsReg; decide)
  · exact absurd hm (by decide)
  · exact absurd hm (by decide)

end ClusterFtpd
