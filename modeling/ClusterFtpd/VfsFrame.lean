import ClusterFtpd.VfsRuns

/-!
# What a command does to the other paths

A path is found along entries, so a command that changes one entry can change the answer for a
path only if the walk of that path takes the entry.  In a tree-shaped file system those are the
path of the entry itself and what is below it.

Main results:

* `keepsOthers_iff`: a successful upload, `MKD` or `DELE` of a path keeps all other paths, unless it
  is a creation over a path with something below;
* `upload_loses_descendant`: an upload to a directory loses what is in it;
* `rmdRight_iff`: when `RMD` removes exactly the empty directories and nothing else;
* `mkd_rmd_fails`: `MKD` followed by `RMD` of the same path fails.
-/

namespace ClusterFtpd

open Interaction MachineInt NameGraph PathComponents

variable {db db' : Redis} {p : Text} {names parent : List Text} {entry : Text}

/-! ### Canonical paths and their names -/

theorem names_of_canonical {p : Text} (h : Canonical p) :
    ∃ ns, (∀ c ∈ ns, IsEntry c) ∧ p = absolute '/' ns ∧
      Addresses p ns ns.dropLast (ns.getLast?.getD []) := by
  obtain ⟨ns, hns, rfl⟩ := h
  exact ⟨ns, hns, rfl, addresses_absolute hns⟩

theorem absolute_injective {ns ms : List Text} (hns : ∀ c ∈ ns, IsEntry c)
    (hms : ∀ c ∈ ms, IsEntry c) (h : absolute '/' ns = absolute '/' ms) : ns = ms := by
  have hb := congrArg (below '/' '.') h
  rwa [below_absolute hns, below_absolute hms] at hb

/-- A canonical path is found at a fid. -/
theorem ask_absolute {ns : List Text} (hns : ∀ c ∈ ns, IsEntry c) {k : ℕ} :
    ask (lookupFid (absolute '/' ns)) db = some (k : ℤ) ↔ namedFid db ns = some k :=
  ask_lookupFid_natCast (addresses_absolute hns).lookup_names

/-- In a tree, a found path that takes the entry of another path goes on below that path. -/
theorem TreeShaped.below_of_uses (h : TreeShaped db) (ha : Addresses p names parent entry)
    {f : ℕ} (hf : namedFid db parent = some f) {ms : List Text} (hms : ∀ c ∈ ms, IsEntry c)
    (hu : Uses (child db) 0 ms f entry) : names ≠ [] ∧ ∃ r, ms = names ++ r := by
  obtain ⟨xs, ys, rfl, hxs⟩ := hu
  obtain ⟨hwf, hlt⟩ := h.namedFid_iff.mp hf
  have hfid : IsFid f := by
    show f < 4294967295
    omega
  have hxs' := (h.walk_entries hfid).mp hxs
  have hparent := h.tree.unique_path hxs' hwf
  rcases ha.shape with ⟨rfl, -⟩ | ⟨-, -, rfl⟩
  · exact ⟨by simp, ys, by rw [hparent]; simp⟩
  · have hentry := hms [] (by simp)
    exact absurd rfl hentry.1.ne_nil

/-- The fids a tree leads to have a `stat` hash. -/
theorem TreeShaped.stat_of_named (h : TreeShaped db) {ns : List Text} {k : ℕ}
    (hk : namedFid db ns = some k) : db.stat k ≠ .absent := by
  obtain ⟨hw, -⟩ := h.namedFid_iff.mp hk
  rcases List.eq_nil_or_concat' ns with rfl | ⟨cs, n, rfl⟩
  · rw [walk_nil, Option.some.injEq] at hw
    subst hw
    exact h.root_dir.ne_absent
  · rw [walk_concat_eq_some] at hw
    obtain ⟨a, -, ha⟩ := hw
    exact h.tree.target ha

/-! ### Creations and deletions -/

/-- The commands that create or delete one path. -/
inductive PathCmd where
  | store (cmd : UploadCmd) (newTransaction : Bool) (now : ℤ) (uid gid : ℕ)
      (transfer : ℤ → TransferResult)
  | mkd (now : ℤ) (uid gid : ℕ)
  | dele

/-- The command succeeds on `path`: the file is recorded, or the reply is 250. -/
inductive Succeeds (path : Text) (db db' : Redis) : PathCmd → Prop where
  | store {cmd newTransaction now uid gid transfer} :
      run serveRedis (storeFile cmd newTransaction now path uid gid transfer) db =
        .done (some 0) db' →
      Succeeds path db db' (.store cmd newTransaction now uid gid transfer)
  | mkd {now uid gid r} :
      run serveRedis (cmdMkd now (some path) uid gid) db = .done r db' → r.code = some 250 →
      Succeeds path db db' (.mkd now uid gid)
  | dele {r} :
      run serveRedis (cmdDele (some path)) db = .done r db' → r.code = some 250 →
      Succeeds path db db' .dele

/-- Every other canonical path that was found is found at the same fid with the same metadata. -/
def KeepsOthers (db db' : Redis) (path : Text) : Prop :=
  ∀ q, Canonical q → q ≠ path → ∀ f : ℕ, ask (lookupFid q) db = some (f : ℤ) →
    ask (lookupFid q) db' = some (f : ℤ) ∧ ask (stat q) db' = ask (stat q) db ∧
      ask (lookupSlaveInfo q) db' = ask (lookupSlaveInfo q) db

/-- No canonical path below `path` is found. -/
def NothingBelow (db : Redis) (path : Text) : Prop :=
  ∀ q, Canonical q → (path ++ ['/']) <+: q → ∀ f : ℕ, ask (lookupFid q) db ≠ some (f : ℤ)

/-- Same fid and same `stat` hash: same answers. -/
theorem keeps_of_namedFid {ms : List Text} (hms : ∀ c ∈ ms, IsEntry c) {k : ℕ}
    (hk : namedFid db ms = some k) (hk' : namedFid db' ms = some k)
    (hs : db'.stat k = db.stat k) :
    ask (lookupFid (absolute '/' ms)) db' = some (k : ℤ) ∧
      ask (stat (absolute '/' ms)) db' = ask (stat (absolute '/' ms)) db ∧
      ask (lookupSlaveInfo (absolute '/' ms)) db' =
        ask (lookupSlaveInfo (absolute '/' ms)) db := by
  have ha := addresses_absolute hms
  have hu : u32 (k : ℤ) = k := u32_of_namedFid hk
  refine ⟨(ask_absolute hms).mpr hk', ?_, ?_⟩
  · rw [ask_stat ha.lookup_names, ask_stat ha.lookup_names, lookupResult_eq_natCast.mpr hk,
      lookupResult_eq_natCast.mpr hk',
      Option.map_some, Option.map_some]
    simp only [statOf, hu, hs]
  · rw [ask_lookupSlaveInfo ha.lookup_names, ask_lookupSlaveInfo ha.lookup_names,
      lookupResult_eq_natCast.mpr hk,
      lookupResult_eq_natCast.mpr hk', Option.map_some, Option.map_some]
    simp only [slaveOf, hu, hs]

theorem below_iff_names {ns ms : List Text} (hns : ∀ c ∈ ns, IsEntry c)
    (hms : ∀ c ∈ ms, IsEntry c) (hne : ns ≠ []) :
    (absolute '/' ns ++ ['/']) <+: absolute '/' ms ↔ ∃ r, r ≠ [] ∧ ms = ns ++ r := by
  have hN : absolute '/' ns = render '/' ns := by simp [absolute, hne]
  constructor
  · rintro ⟨r, hr⟩
    have hms0 : ms ≠ [] := by
      rintro rfl
      have hlen := congrArg List.length hr
      obtain ⟨v, hv⟩ := slash_head_absolute ns
      rw [hv] at hlen
      simp [absolute] at hlen
    have hM : absolute '/' ms = render '/' ms := by simp [absolute, hms0]
    have hcut : render '/' ns ++ ['/'] ++ r = render '/' ns ++ '/' :: r := by simp
    have hpn := pieces_render '/' (l := []) (by simp) (names_notMem hns)
    have hpm := pieces_render '/' (l := []) (by simp) (names_notMem hms)
    rw [List.nil_append] at hpn hpm
    rw [hN, hcut, hM] at hr
    have hp := congrArg (pieces '/') hr
    rw [pieces_append, hpn, hpm, List.cons_append, List.cons.injEq] at hp
    exact ⟨pieces '/' r, pieces_ne_nil '/' r, hp.2.symm⟩
  · rintro ⟨r, hr, rfl⟩
    cases r with
    | nil => exact absurd rfl hr
    | cons c cs =>
        refine ⟨c ++ render '/' cs, ?_⟩
        simp [absolute, hne]

theorem nothingBelow_root (db : Redis) : NothingBelow db (absolute '/' []) := by
  rintro q ⟨ms, hms, rfl⟩ ⟨r, hr⟩ f -
  cases ms with
  | nil =>
      have hlen := congrArg List.length hr
      simp [absolute] at hlen
  | cons c cs =>
      have hc := (hms c (by simp)).1
      rw [absolute_cons_eq] at hr
      have htail : '/' :: r = c ++ render '/' cs := (List.cons.inj hr).2
      cases c with
      | nil => exact hc.ne_nil rfl
      | cons d ds =>
          have hd : '/' = d := (List.cons.inj htail).1
          rw [← hd] at hc
          exact hc.notMem List.mem_cons_self

theorem entries_of_append {ns r : List Text} (h : ∀ c ∈ ns ++ r, IsEntry c) :
    ∀ c ∈ ns, IsEntry c := fun c hc => h c (List.mem_append_left r hc)

/-- **Creation**: an entry for a new fid keeps the other paths exactly when nothing is found below
the path of the entry.  `hdead` says that nothing is found below the new fid. -/
theorem keepsOthers_create (h : TreeShaped db) {ns : List Text} (hns : ∀ c ∈ ns, IsEntry c)
    (ha : Addresses (absolute '/' ns) ns parent entry) {f j : ℕ}
    (hf : namedFid db parent = some f) (hj : db.stat j = .absent)
    (hkeep : ∀ a m d, ¬ (a = f ∧ m = entry) → child db a m = some d → child db' a m = some d)
    (hnew : child db' f entry = some j)
    (hdead : ∀ r, r ≠ [] → ∀ k < 2147483648, walk (child db') j r ≠ some k)
    (hstat : ∀ k, k ≠ j → db'.stat k = db.stat k) :
    KeepsOthers db db' (absolute '/' ns) ↔ NothingBelow db (absolute '/' ns) := by
  constructor
  · intro hothers
    by_cases hne : ns = []
    · subst hne
      exact nothingBelow_root db
    · rintro q ⟨ms, hms, rfl⟩ hpre k hk
      obtain ⟨r, hr, rfl⟩ := (below_iff_names hns hms hne).mp hpre
      have hqp : absolute '/' (ns ++ r) ≠ absolute '/' ns := by
        intro heq
        have := absolute_injective hms hns heq
        exact hr (List.append_right_eq_self.mp this)
      obtain ⟨hk', -, -⟩ := hothers _ ⟨_, hms, rfl⟩ hqp k hk
      obtain ⟨hw, hlt⟩ := namedFid_eq_some.mp ((ask_absolute hms).mp hk')
      rcases ha.shape with ⟨rfl, -⟩ | ⟨h0, -⟩
      · -- the parent is still found, and its entry now leads to the new fid
        have hparentNames := entries_of_append (entries_of_append hms)
        have hu : ¬ Uses (child db) 0 parent f entry := by
          intro hu
          obtain ⟨-, r', hr'⟩ := h.below_of_uses ha hf hparentNames hu
          have hlen := congrArg List.length hr'
          simp at hlen
        have hwf := walk_mono_off hkeep hu (namedFid_eq_some.mp hf).1
        rw [List.append_assoc, walk_append_eq_some] at hw
        obtain ⟨b, hb, hw⟩ := hw
        rw [hwf, Option.some.injEq] at hb
        subst hb
        rw [List.singleton_append, walk_cons, hnew] at hw
        exact hdead r hr k hlt hw
      · exact hne h0
  · rintro hbelow q ⟨ms, hms, rfl⟩ hqp k hk
    have hkn := (ask_absolute hms).mp hk
    have hu : ¬ Uses (child db) 0 ms f entry := by
      intro hu
      obtain ⟨hne, r, rfl⟩ := h.below_of_uses ha hf hms hu
      have hr : r ≠ [] := by
        rintro rfl
        rw [List.append_nil] at hqp
        exact hqp rfl
      exact hbelow _ ⟨_, hms, rfl⟩ ((below_iff_names hns hms hne).mpr ⟨r, hr, rfl⟩) k hk
    obtain ⟨hw, hlt⟩ := namedFid_eq_some.mp hkn
    have hkn' := namedFid_eq_some.mpr ⟨walk_mono_off hkeep hu hw, hlt⟩
    have hkj : k ≠ j := by
      rintro rfl
      exact h.stat_of_named hkn hj
    exact keeps_of_namedFid hms hkn hkn' (hstat k hkj)

/-- **Deletion** of a path whose fid has no entries keeps the other paths. -/
theorem keepsOthers_delete (h : TreeShaped db) {ns : List Text}
    (ha : Addresses (absolute '/' ns) ns parent entry) {f k₀ : ℕ}
    (hf : namedFid db parent = some f) (hk₀ : namedFid db ns = some k₀)
    (hempty : db.dirent k₀ = ∅)
    (hkeep : ∀ a m d, ¬ (a = f ∧ m = entry) → child db a m = some d → child db' a m = some d)
    (hstat : ∀ k, k ≠ k₀ → db'.stat k = db.stat k) :
    KeepsOthers db db' (absolute '/' ns) := by
  rintro q ⟨ms, hms, rfl⟩ hqp k hk
  have hkn := (ask_absolute hms).mp hk
  obtain ⟨hw, hlt⟩ := namedFid_eq_some.mp hkn
  have hu : ¬ Uses (child db) 0 ms f entry := by
    intro hu
    obtain ⟨-, r, rfl⟩ := h.below_of_uses ha hf hms hu
    rw [walk_append, (namedFid_eq_some.mp hk₀).1] at hw
    cases r with
    | nil =>
        rw [List.append_nil] at hqp
        exact hqp rfl
    | cons m r =>
        rw [Option.bind_some, walk_cons, child_eq_none_of_empty hempty] at hw
        exact absurd hw (by simp)
  have hkn' := namedFid_eq_some.mpr ⟨walk_mono_off hkeep hu hw, hlt⟩
  have hkk₀ : k ≠ k₀ := by
    rintro rfl
    have hpath := h.tree.unique_path (h.namedFid_iff.mp hkn).1 (h.namedFid_iff.mp hk₀).1
    rw [hpath] at hqp
    exact hqp rfl
  exact keeps_of_namedFid hms hkn hkn' (hstat k hkk₀)

theorem child_setEntry_of_ne {f : ℕ} {n : Text} {v : ℤ}
    (hd : db'.dirent = setEntry db.dirent f n v) {a : ℕ} {m : Text} (hne : ¬ (a = f ∧ m = n)) :
    child db' a m = child db a m := by
  show ((db'.dirent a).lookup m).map u32 = ((db.dirent a).lookup m).map u32
  rw [hd, lookup_setEntry, if_neg hne]

theorem TreeShaped.dirent_of_free (h : TreeShaped db) {j : ℕ} (hj : db.stat j = .absent) :
    db.dirent j = ∅ := by
  apply h.dirent_eq_empty
  rw [hj]
  exact not_isDir_absent

theorem TreeShaped.ne_of_found (h : TreeShaped db) {ns : List Text} {f j : ℕ}
    (hf : namedFid db ns = some f) (hj : db.stat j = .absent) : f ≠ j := by
  rintro rfl
  exact h.stat_of_named hf hj

/-- An upload that is recorded keeps the other paths exactly when nothing is found below its
path. -/
theorem keepsOthers_store (h : TreeShaped db) (hfree : NextFidFree db) {ns : List Text}
    (hns : ∀ c ∈ ns, IsEntry c) (ha : Addresses (absolute '/' ns) ns parent entry)
    {cmd : UploadCmd} {newTransaction : Bool} {now : ℤ} {uid gid : ℕ}
    {transfer : ℤ → TransferResult}
    (hrun : run serveRedis
      (storeFile cmd newTransaction now (absolute '/' ns) uid gid transfer) db =
        .done (some 0) db') :
    KeepsOthers db db' (absolute '/' ns) ↔ NothingBelow db (absolute '/' ns) := by
  rcases storeFile_ends ha hrun with ⟨hr, -⟩ | ⟨f, size, slave, -, hf, -, -, -, hd, hs⟩
  · exact absurd rfl hr
  · have hfj := h.ne_of_found hf hfree
    have hempty := h.dirent_of_free hfree
    unfold NextFidFree at hfree
    have hlt := u32_lt ((db.fid_counter + 1 : ℕ) : ℤ)
    generalize u32 ((db.fid_counter + 1 : ℕ) : ℤ) = j at *
    apply keepsOthers_create h hns ha hf hfree
    · intro a m d hne had
      rw [child_setEntry_of_ne hd hne, had]
    · show ((db'.dirent f).lookup _).map u32 = some j
      rw [hd, lookup_setEntry, if_pos ⟨rfl, rfl⟩, Option.map_some, u32_natCast hlt]
    · intro r hr k _ hw
      cases r with
      | nil => exact hr rfl
      | cons m r =>
          have hj' : db'.dirent j = ∅ := by
            rw [hd, setEntry_of_ne hfj.symm]
            exact hempty
          rw [walk_cons, child_eq_none_of_empty hj'] at hw
          exact absurd hw (by simp)
    · intro k hk
      rw [hs, Function.update_of_ne hk]

/-- Walks that a set of fids with one exit keeps to end at this exit. -/
theorem walk_exits {next : ℕ → Text → Option ℕ} {inside : ℕ → Prop} {out : ℕ} (hout : inside out)
    (hstay : ∀ a, inside a → ∀ m d, next a m = some d → d = out) {r : List Text} {a k : ℕ}
    (ha : inside a) (hr : r ≠ []) (hw : walk next a r = some k) : k = out := by
  induction r generalizing a with
  | nil => exact absurd rfl hr
  | cons m r ih =>
      rw [walk_cons, Option.bind_eq_some_iff] at hw
      obtain ⟨d, hd, hw⟩ := hw
      have hdout := hstay a ha m d hd
      by_cases hlast : r = []
      · rw [hlast, walk_nil, Option.some.injEq] at hw
        rw [← hw, hdout]
      · exact ih (hdout ▸ hout) hlast hw

/-- From a new directory only the placeholder leads on, and it leads nowhere. -/
theorem placeholder_exits (h : TreeShaped db) {f j : ℕ} {n : Text} {v : ℤ} (hf : f ≠ 4294967295)
    (hfj : f ≠ j) (hempty : db.dirent j = ∅)
    (hd : db'.dirent = setEntry (setEntry db.dirent f n v) j placeholder (-1)) :
    ∀ a, (a = j ∨ a = 4294967295) → ∀ m d, child db' a m = some d → d = 4294967295 := by
  have hmax : db.dirent 4294967295 = ∅ := by
    apply h.dirent_of_free
    by_contra hne
    have hfid : (4294967295 : ℕ) < 4294967295 := h.isFid_of_stat hne
    omega
  intro a haj m d had
  have hdirent : (db'.dirent a).lookup m = if a = j ∧ m = placeholder then some (-1) else none := by
    rw [hd, lookup_setEntry]
    split_ifs
    · rfl
    · rcases haj with rfl | rfl
      · rw [setEntry_of_ne hfj.symm, hempty, Finmap.lookup_empty]
      · rw [setEntry_of_ne hf.symm, hmax, Finmap.lookup_empty]
  have had' : ((db'.dirent a).lookup m).map u32 = some d := had
  rw [hdirent] at had'
  split_ifs at had'
  · rw [Option.map_some, Option.some.injEq] at had'
    rw [← had']
    rfl
  · exact absurd had' (by simp)

/-- So does `MKD`. -/
theorem keepsOthers_mkd (h : TreeShaped db) (hfree : NextFidFree db) {ns : List Text}
    (hns : ∀ c ∈ ns, IsEntry c) (ha : Addresses (absolute '/' ns) ns parent entry) {now : ℤ}
    {uid gid : ℕ} {r : Reply}
    (hrun : run serveRedis (cmdMkd now (some (absolute '/' ns)) uid gid) db = .done r db')
    (hcode : r.code = some 250) :
    KeepsOthers db db' (absolute '/' ns) ↔ NothingBelow db (absolute '/' ns) := by
  rcases cmdMkd_ends ha hrun with ⟨hr, -⟩ | ⟨-, hst, f, hf, rfl⟩
  · exact absurd hcode hr
  · have hd := mkdirWrites_dirent db.incrFid now f ((db.fid_counter + 1 : ℕ) : ℤ) uid gid entry
    have hs := mkdirWrites_stat db.incrFid now f ((db.fid_counter + 1 : ℕ) : ℤ) uid gid entry
    rw [u32_of_namedFid hf, Redis.incrFid_dirent] at hd
    rw [Redis.incrFid_stat] at hs
    generalize applyAll (mkdirWrites now f entry uid gid ((db.fid_counter + 1 : ℕ) : ℤ))
      db.incrFid = db₁ at hd hs ⊢
    have hfj := h.ne_of_found hf hfree
    have hempty := h.dirent_of_free hfree
    unfold NextFidFree at hfree
    have hlt := u32_lt ((db.fid_counter + 1 : ℕ) : ℤ)
    generalize u32 ((db.fid_counter + 1 : ℕ) : ℤ) = j at *
    apply keepsOthers_create h hns ha hf hfree
    · intro a m d hne had
      have haj : a ≠ j := by
        rintro rfl
        rw [child_eq_none_of_empty hempty] at had
        exact absurd had (by simp)
      show ((db₁.dirent a).lookup m).map u32 = some d
      rw [hd, setEntry_of_ne haj, lookup_setEntry, if_neg hne]
      exact had
    · show ((db₁.dirent f).lookup _).map u32 = some j
      rw [hd, setEntry_of_ne hfj, lookup_setEntry, if_pos ⟨rfl, rfl⟩, Option.map_some,
        u32_natCast hlt]
    · have hfmax : f ≠ 4294967295 := by
        have hfid := namedFid_lt hf
        omega
      intro r hr k hk hw
      have hend := walk_exits (.inr rfl) (placeholder_exits h hfmax hfj hempty hd) (.inl rfl) hr hw
      omega
    · intro k hk
      rw [hs, Function.update_of_ne hk]

/-- `DELE` keeps the other paths. -/
theorem keepsOthers_dele (h : TreeShaped db) {ns : List Text}
    (ha : Addresses (absolute '/' ns) ns parent entry) {r : Reply}
    (hrun : run serveRedis (cmdDele (some (absolute '/' ns))) db = .done r db')
    (hcode : r.code = some 250) : KeepsOthers db db' (absolute '/' ns) := by
  rcases cmdDele_ends ha hrun with ⟨hr, -⟩ | ⟨-, k, f, hk, -, hreg, hf, rfl⟩
  · exact absurd hcode hr
  · have hempty := h.dirent_eq_empty (not_isDir_of_isReg hreg)
    apply keepsOthers_delete h ha hf hk hempty
    · intro a m d hne had
      show (((applyAll _ db).dirent a).lookup m).map u32 = some d
      rw [removeWrites_dirent, u32_of_namedFid hf, lookup_dropEntry, if_neg hne]
      exact had
    · intro i hi
      rw [removeWrites_stat, u32_of_namedFid hk, Function.update_of_ne hi]

/-- **The other paths.**  In a tree-shaped file system whose next fid is free, a command that
succeeds on a path keeps every other path, except a creation over a path with something below. -/
theorem keepsOthers_iff (h : TreeShaped db) (hfree : NextFidFree db) (hp : Canonical p)
    {c : PathCmd} (hc : Succeeds p db db' c) :
    KeepsOthers db db' p ↔ (c = .dele ∨ NothingBelow db p) := by
  obtain ⟨ns, hns, rfl, ha⟩ := names_of_canonical hp
  cases hc with
  | store hrun =>
      rw [keepsOthers_store h hfree hns ha hrun]
      simp
  | mkd hrun hcode =>
      rw [keepsOthers_mkd h hfree hns ha hrun hcode]
      simp
  | dele hrun hcode => exact iff_of_true (keepsOthers_dele h ha hrun hcode) (.inl rfl)

/-- After `InitRedis` and `MKD /a`. -/
def withA : Redis := applyAll (mkdirWrites 0 0 ['a'] 1 1 1) (initRedis 0).incrFid

/-- After `MKD /a/b` as well. -/
def withAB : Redis := applyAll (mkdirWrites 0 1 ['b'] 1 1 2) withA.incrFid

theorem canonical_ab : Canonical "/a/b".toList := ⟨[['a'], ['b']], by decide, rfl⟩

theorem treeShaped_withA : TreeShaped withA := by
  have hrun : run serveRedis (cmdMkd 0 (some "/a".toList) 1 1) (initRedis 0) =
      .done (.line 250 "MKD command successful.") withA := rfl
  have hnames : ∀ c ∈ [['a']], IsEntry c := by decide
  refine mkd_keeps_tree (addresses_absolute hnames) (treeShaped_initRedis 0) hrun ?_
  rintro - f hf
  have hf0 : ask (lookupFid (parentPath "/a".toList)) (initRedis 0) = some 0 := rfl
  have hf' := hf0.symm.trans hf
  rw [Option.some.injEq] at hf'
  obtain rfl : f = 0 := by omega
  exact ⟨by decide, .inl rfl, by decide, by decide⟩

theorem treeShaped_withAB : TreeShaped withAB := by
  have hrun : run serveRedis (cmdMkd 0 (some "/a/b".toList) 1 1) withA =
      .done (.line 250 "MKD command successful.") withAB := rfl
  have hnames : ∀ c ∈ [['a'], ['b']], IsEntry c := by decide
  refine mkd_keeps_tree (addresses_absolute hnames) treeShaped_withA hrun ?_
  rintro - f hf
  have hf0 : ask (lookupFid (parentPath "/a/b".toList)) withA = some 1 := rfl
  have hf' := hf0.symm.trans hf
  rw [Option.some.injEq] at hf'
  obtain rfl : f = 1 := by omega
  exact ⟨by decide, .inl rfl, by decide, by decide⟩

/-- `MKD /a` in a new file system. -/
theorem keepsOthers_iff_mkd :
    KeepsOthers (initRedis 0) withA "/a".toList ↔
      (PathCmd.mkd 0 1 1 = .dele ∨ NothingBelow (initRedis 0) "/a".toList) :=
  keepsOthers_iff (treeShaped_initRedis 0) (by decide) canonical_a (.mkd rfl rfl)

/-- An upload to the directory `/a` that holds `/a/b`: the file replaces the directory. -/
theorem upload_loses_descendant :
    ¬ ∀ (db db' : Redis) (p : Text) (c : PathCmd), TreeShaped db → NextFidFree db →
      Canonical p → Succeeds p db db' c → KeepsOthers db db' p := by
  intro hall
  have hrun : run serveRedis (storeFile .stor false 0 "/a".toList 1 1 fun _ => some (3, {}))
      withAB = .done (some 0) (applyAll (saveWrites 0 0 ['a'] ⟨3, 1, 1, 3, {}⟩) withAB.incrFid) :=
    rfl
  have hothers := hall _ _ _ _ treeShaped_withAB (by decide) canonical_a (.store hrun)
  obtain ⟨hfound, -, -⟩ := hothers _ canonical_ab (by decide) 2 rfl
  exact absurd hfound (by decide)

/-! ### Removing a directory -/

/-- `path` is a directory with no entry besides the placeholder. -/
def EmptyDir (db : Redis) (path : Text) : Prop :=
  ∃ k : ℕ, ask (lookupFid path) db = some (k : ℤ) ∧ IsDir (db.stat k) ∧
    ∀ m v, (db.dirent k).lookup m = some v → m = placeholder ∧ v = -1

/-- What `RMD path` should do: succeed exactly on an empty directory, and then remove it and
nothing else; otherwise change nothing. -/
def RmdRight (db : Redis) (path : Text) : Prop :=
  ∃ r db', run serveRedis (cmdRmd (some path)) db = .done r db' ∧
    (r.code = some 250 ↔ EmptyDir db path) ∧
    (r.code = some 250 →
      (∀ f : ℕ, ask (lookupFid path) db' ≠ some (f : ℤ)) ∧
        (∀ k : ℕ, ask (lookupFid path) db = some (k : ℤ) →
          db'.stat k = .absent ∧ db'.dirent k = ∅) ∧
        ∀ q, Canonical q → q ≠ path → ∀ f : ℕ,
          ask (lookupFid q) db' = some (f : ℤ) ↔ ask (lookupFid q) db = some (f : ℤ)) ∧
    (r.code ≠ some 250 → db' = db)

/-- No other canonical path that is found takes the entry of `path` in its directory. -/
def OwnEntry (db : Redis) (path : Text) : Prop :=
  ∀ f : ℕ, ask (lookupFid (parentPath path)) db = some (f : ℤ) →
    ∀ ms, (∀ c ∈ ms, IsEntry c) → absolute '/' ms ≠ path →
      (∃ k : ℕ, ask (lookupFid (absolute '/' ms)) db = some (k : ℤ)) →
      ¬ Uses (child db) 0 ms f (entryName path)

/-- When `RMD` gets to remove: the fid has no `dirent` hash and the parent is found. -/
def RmdRemoves (db : Redis) (path : Text) : Prop :=
  (∃ k : ℕ, ask (lookupFid path) db = some (k : ℤ) ∧ db.dirent k = ∅) ∧
    ∃ f : ℕ, ask (lookupFid (parentPath path)) db = some (f : ℤ)

/-- The path is a directory by its `stat` hash. -/
def PathIsDir (db : Redis) (path : Text) : Prop :=
  ∃ k : ℕ, ask (lookupFid path) db = some (k : ℤ) ∧ IsDir (db.stat k)

/-- A lookup that ends has ended on the way there too. -/
theorem lookupResult_append_none {fid : ℤ} {xs : List Text} (ys : List Text)
    (h : lookupResult db fid xs = none) : lookupResult db fid (xs ++ ys) = none := by
  induction xs generalizing fid with
  | nil => exact absurd h (by simp [lookupResult])
  | cons x xs ih =>
      rw [List.cons_append, lookupResult]
      rw [lookupResult] at h
      split_ifs at h ⊢ with he
      · rfl
      · cases hl : (db.dirent (u32 fid)).lookup x with
        | none =>
            rw [hl] at h
            exact absurd h (by simp)
        | some v =>
            rw [hl] at h
            exact ih h

/-- The removal of an entry and of the `stat` hash it leads to, seen from the paths. -/
theorem namedFid_dropEntry {f : ℕ} {n : Text} (hd : db'.dirent = dropEntry db.dirent f n)
    (ms : List Text) (k : ℕ) :
    namedFid db' ms = some k ↔ namedFid db ms = some k ∧ ¬ Uses (child db) 0 ms f n := by
  have hoff : AgreeOff (child db) (child db') f n := by
    intro a m hne
    show ((db'.dirent a).lookup m).map u32 = ((db.dirent a).lookup m).map u32
    rw [hd, lookup_dropEntry, if_neg hne]
  have hgone : child db' f n = none := by
    show ((db'.dirent f).lookup n).map u32 = none
    rw [hd, lookup_dropEntry, if_pos ⟨rfl, rfl⟩]
    rfl
  have hsub : ∀ a m d, child db' a m = some d → child db a m = some d := by
    intro a m d had
    have hne : ¬ (a = f ∧ m = n) := by
      rintro ⟨rfl, rfl⟩
      rw [hgone] at had
      exact absurd had (by simp)
    rw [← hoff a m hne]
    exact had
  rw [namedFid_eq_some, namedFid_eq_some]
  constructor
  · rintro ⟨hw, hlt⟩
    have hw' := walk_mono hsub hw
    refine ⟨⟨hw', hlt⟩, ?_⟩
    -- a walk that took the entry would need it now
    rintro ⟨xs, ys, rfl, hxs⟩
    rw [walk_append_eq_some] at hw
    obtain ⟨b, hb, hw⟩ := hw
    have hbf := walk_mono hsub hb
    rw [hxs, Option.some.injEq] at hbf
    subst hbf
    rw [walk_cons, hgone] at hw
    exact absurd hw (by simp)
  · rintro ⟨⟨hw, hlt⟩, hu⟩
    rw [walk_eq_of_not_uses hoff ms 0 hu]
    exact ⟨hw, hlt⟩

/-- The path of the entry `n` below `cs`, which is found at the fid `k`, with its `stat` hash. -/
structure EntryAt (db : Redis) (p : Text) (cs : List Text) (n : Text) (k : ℕ) : Prop where
  names : ∀ c ∈ cs ++ [n], IsEntry c
  path : p = absolute '/' (cs ++ [n])
  addresses : Addresses p (cs ++ [n]) cs n
  named : namedFid db (cs ++ [n]) = some k
  stored : (statOf db (k : ℤ)).isSome

/-- A path other than the root that has a `stat` is that of an entry. -/
theorem exists_entryAt (hp : Canonical p) (hroot : p ≠ ['/'])
    (hexists : ∃ st, ask (stat p) db = some (some st)) : ∃ cs n k, EntryAt db p cs n k := by
  obtain ⟨ns, hns, rfl, ha⟩ := names_of_canonical hp
  have hne : ns ≠ [] := by
    rintro rfl
    exact hroot rfl
  obtain ⟨cs, n, rfl⟩ : ∃ cs n, ns = cs ++ [n] := (List.eq_nil_or_concat' ns).resolve_left hne
  rw [List.dropLast_concat, List.getLast?_concat, Option.getD_some] at ha
  obtain ⟨st, hst⟩ := hexists
  rw [ask_stat ha.lookup_names, Option.map_eq_some_iff] at hst
  obtain ⟨fid, hself, hst⟩ := hst
  obtain ⟨h0, -, -⟩ := statOf_eq_some.mp hst
  obtain ⟨k, rfl, -, hk⟩ := exists_natCast_of_found hself (by omega)
  exact ⟨cs, n, k, hns, rfl, ha, hk, Option.isSome_iff_exists.mpr ⟨st, hst⟩⟩

section EntryAt

variable {cs : List Text} {n : Text} {k f : ℕ}

theorem EntryAt.ask_iff (h : EntryAt db p cs n k) (i : ℕ) :
    ask (lookupFid p) db = some (i : ℤ) ↔ i = k := by
  rw [h.path, ask_absolute h.names, h.named, Option.some.injEq]
  exact eq_comm

theorem EntryAt.parent_iff (h : EntryAt db p cs n k) (i : ℕ) :
    ask (lookupFid (parentPath p)) db = some (i : ℤ) ↔ namedFid db cs = some i :=
  ask_lookupFid_natCast h.addresses.lookup_parent

theorem EntryAt.emptyDir_iff (h : EntryAt db p cs n k) :
    EmptyDir db p ↔ IsDir (db.stat k) ∧
      ∀ m v, (db.dirent k).lookup m = some v → m = placeholder ∧ v = -1 := by
  constructor
  · rintro ⟨i, hi, hdir⟩
    rw [(h.ask_iff i).mp hi] at hdir
    exact hdir
  · intro hdir
    exact ⟨k, (h.ask_iff k).mpr rfl, hdir⟩

theorem EntryAt.pathIsDir_iff (h : EntryAt db p cs n k) :
    PathIsDir db p ↔ IsDir (db.stat k) := by
  constructor
  · rintro ⟨i, hi, hdir⟩
    rw [(h.ask_iff i).mp hi] at hdir
    exact hdir
  · intro hdir
    exact ⟨k, (h.ask_iff k).mpr rfl, hdir⟩

theorem EntryAt.ownEntry_iff (h : EntryAt db p cs n k) (hf : namedFid db cs = some f) :
    OwnEntry db p ↔ ∀ ms, (∀ c ∈ ms, IsEntry c) → absolute '/' ms ≠ p →
      (∃ i, namedFid db ms = some i) → ¬ Uses (child db) 0 ms f n := by
  unfold OwnEntry
  rw [h.addresses.entry_eq]
  constructor
  · rintro hown ms hms hmsne ⟨i, hi⟩
    exact hown f ((h.parent_iff f).mpr hf) ms hms hmsne ⟨i, (ask_absolute hms).mpr hi⟩
  · rintro hown f₁ hf₁ ms hms hmsne ⟨i, hi⟩
    have hff : f₁ = f := by
      have h₁ := (h.parent_iff f₁).mp hf₁
      rw [hf, Option.some.injEq] at h₁
      exact h₁.symm
    rw [hff]
    exact hown ms hms hmsne ⟨i, (ask_absolute hms).mp hi⟩

/-- Where `RMD` gets to remove, the parent is found, and the fid has no entries. -/
theorem EntryAt.removes_iff (h : EntryAt db p cs n k) :
    RmdRemoves db p ↔ db.dirent k = ∅ ∧ ∃ f, namedFid db cs = some f := by
  constructor
  · rintro ⟨⟨i, hi, hempty⟩, f, hf⟩
    rw [(h.ask_iff i).mp hi] at hempty
    exact ⟨hempty, f, (h.parent_iff f).mp hf⟩
  · rintro ⟨hempty, f, hf⟩
    exact ⟨⟨k, (h.ask_iff k).mpr rfl, hempty⟩, f, (h.parent_iff f).mpr hf⟩

theorem EntryAt.run_rmd (h : EntryAt db p cs n k) :
    run serveRedis (cmdRmd (some p)) db =
      if db.dirent k = ∅ then
        onAnswer db (lookupResult db 0 cs) fun f =>
          if f < 0 then .done (.line 450 "Internal error deleting the directory.") db
          else .done (.line 250 "Directory deleted successfully.")
            (applyAll (rmdirWrites f n k) db)
      else .done (.line 450 "Internal error deleting the directory.") db := by
  have hk : u32 (k : ℤ) = k := u32_of_namedFid h.named
  rw [run_cmdRmd h.addresses, lookupResult_eq_natCast.mpr h.named, onAnswer_some, hk,
    if_pos h.stored]

/-- It removes: the reply is 250. -/
theorem EntryAt.run_rmd_removes (h : EntryAt db p cs n k) (hempty : db.dirent k = ∅)
    (hf : namedFid db cs = some f) : run serveRedis (cmdRmd (some p)) db =
      .done (.line 250 "Directory deleted successfully.") (applyAll (rmdirWrites f n k) db) := by
  rw [h.run_rmd, if_pos hempty, lookupResult_eq_natCast.mpr hf, onAnswer_some,
    if_neg (show ¬ (f : ℤ) < 0 by omega)]

/-- It does not: the reply is 450, and nothing changes. -/
theorem EntryAt.run_rmd_keeps (h : EntryAt db p cs n k) (hno : ¬ RmdRemoves db p) :
    run serveRedis (cmdRmd (some p)) db =
      .done (.line 450 "Internal error deleting the directory.") db := by
  rw [h.run_rmd]
  by_cases hempty : db.dirent k = ∅
  · rw [if_pos hempty]
    have hself := lookupResult_eq_natCast.mpr h.named
    cases hr : lookupResult db 0 cs with
    | none =>
        rw [lookupResult_append_none [n] hr] at hself
        exact absurd hself (by simp)
    | some f =>
        rw [onAnswer_some]
        by_cases hf0 : f < 0
        · rw [if_pos hf0]
        · obtain ⟨i, rfl, -, hi⟩ := exists_natCast_of_found hr hf0
          exact absurd (h.removes_iff.mpr ⟨hempty, i, hi⟩) hno
  · rw [if_neg hempty]

/-- A directory without entries is not its own parent. -/
theorem EntryAt.parent_ne (h : EntryAt db p cs n k) (hempty : db.dirent k = ∅)
    (hf : namedFid db cs = some f) : f ≠ k := by
  rintro rfl
  obtain ⟨hw, -⟩ := namedFid_eq_some.mp h.named
  rw [walk_concat_eq_some] at hw
  obtain ⟨b, hb, hbk⟩ := hw
  rw [(namedFid_eq_some.mp hf).1, Option.some.injEq] at hb
  rw [← hb, child_eq_none_of_empty hempty] at hbk
  exact absurd hbk (by simp)

/-- Which paths are found after the removal. -/
theorem EntryAt.found_removed (hf : namedFid db cs = some f) (ms : List Text) (i : ℕ) :
    namedFid (applyAll (rmdirWrites f n k) db) ms = some i ↔
      namedFid db ms = some i ∧ ¬ Uses (child db) 0 ms f n := by
  have hdirent := rmdirWrites_dirent db f k n
  rw [u32_of_namedFid hf] at hdirent
  exact namedFid_dropEntry hdirent ms i

/-- What the removal leaves of a directory of its own. -/
theorem EntryAt.removed (h : EntryAt db p cs n k) (hempty : db.dirent k = ∅)
    (hf : namedFid db cs = some f)
    (hown : ∀ ms, (∀ c ∈ ms, IsEntry c) → absolute '/' ms ≠ p →
      (∃ i, namedFid db ms = some i) → ¬ Uses (child db) 0 ms f n) :
    (∀ i : ℕ, ask (lookupFid p) (applyAll (rmdirWrites f n k) db) ≠ some (i : ℤ)) ∧
      (∀ i : ℕ, ask (lookupFid p) db = some (i : ℤ) →
        (applyAll (rmdirWrites f n k) db).stat i = .absent ∧
          (applyAll (rmdirWrites f n k) db).dirent i = ∅) ∧
      ∀ q, Canonical q → q ≠ p → ∀ i : ℕ,
        ask (lookupFid q) (applyAll (rmdirWrites f n k) db) = some (i : ℤ) ↔
          ask (lookupFid q) db = some (i : ℤ) := by
  have hk : u32 (k : ℤ) = k := u32_of_namedFid h.named
  have hstat := rmdirWrites_stat db f k n
  have hdirent := rmdirWrites_dirent db f k n
  rw [hk] at hstat
  rw [u32_of_namedFid hf] at hdirent
  refine ⟨?_, ?_, ?_⟩
  · intro i hi
    rw [h.path, ask_absolute h.names, EntryAt.found_removed hf] at hi
    exact hi.2 ⟨cs, [], rfl, (namedFid_eq_some.mp hf).1⟩
  · intro i hi
    rw [(h.ask_iff i).mp hi]
    constructor
    · rw [hstat, Function.update_self]
    · rw [hdirent, dropEntry_of_ne (h.parent_ne hempty hf).symm]
      exact hempty
  · rintro q ⟨ms, hms, rfl⟩ hq i
    rw [ask_absolute hms, ask_absolute hms, EntryAt.found_removed hf]
    constructor
    · exact fun hi => hi.1
    · exact fun hi => ⟨hi, hown ms hms hq ⟨i, hi⟩⟩

/-- Where `RMD` removes, it does what it should with a directory of its own only. -/
theorem EntryAt.rmdRight_removes (h : EntryAt db p cs n k) (hrem : RmdRemoves db p) :
    RmdRight db p ↔ PathIsDir db p ∧ OwnEntry db p := by
  obtain ⟨hempty, f, hf⟩ := h.removes_iff.mp hrem
  have hrun := h.run_rmd_removes hempty hf
  rw [h.pathIsDir_iff, h.ownEntry_iff hf]
  constructor
  · rintro ⟨r, db₂, hrun₂, hiff, hsucc, -⟩
    rw [hrun, Outcome.done.injEq] at hrun₂
    obtain ⟨rfl, rfl⟩ := hrun₂
    refine ⟨(h.emptyDir_iff.mp (hiff.mp rfl)).1, ?_⟩
    rintro ms hms hmsne ⟨i, hi⟩ hu
    obtain ⟨-, -, hothers⟩ := hsucc rfl
    have hi' := (hothers _ ⟨ms, hms, rfl⟩ hmsne i).mpr ((ask_absolute hms).mpr hi)
    rw [ask_absolute hms, EntryAt.found_removed hf] at hi'
    exact hi'.2 hu
  · rintro ⟨hdir, hown⟩
    have hnone : ∀ m v, (db.dirent k).lookup m = some v → m = placeholder ∧ v = -1 := by
      intro m v hv
      rw [hempty, Finmap.lookup_empty] at hv
      exact absurd hv (by simp)
    refine ⟨_, _, hrun, ⟨fun _ => h.emptyDir_iff.mpr ⟨hdir, hnone⟩, fun _ => rfl⟩, ?_,
      fun hc => absurd rfl hc⟩
    intro _
    exact h.removed hempty hf hown

/-- Where it does not, it does what it should unless the directory is empty. -/
theorem EntryAt.rmdRight_keeps (h : EntryAt db p cs n k) (hno : ¬ RmdRemoves db p) :
    RmdRight db p ↔ ¬ EmptyDir db p := by
  have hrun := h.run_rmd_keeps hno
  constructor
  · rintro ⟨r, db₂, hrun₂, hiff, -, -⟩ hdir
    rw [hrun, Outcome.done.injEq] at hrun₂
    obtain ⟨rfl, rfl⟩ := hrun₂
    exact absurd (hiff.mpr hdir) (by decide)
  · intro hdir
    exact ⟨_, _, hrun, ⟨fun hc => absurd hc (by decide), fun he => absurd he hdir⟩,
      fun hc => absurd hc (by decide), fun _ => rfl⟩

end EntryAt

/-- **`RMD`** of an existing path other than the root does what it should exactly when: where it
removes, the path is a directory and no other path takes its entry; and where it does not, the
path is not an empty directory. -/
theorem rmdRight_iff (hp : Canonical p) (hroot : p ≠ ['/'])
    (hexists : ∃ st, ask (stat p) db = some (some st)) :
    RmdRight db p ↔
      (RmdRemoves db p → PathIsDir db p ∧ OwnEntry db p) ∧
      (¬ RmdRemoves db p → ¬ EmptyDir db p) := by
  obtain ⟨cs, n, k, h⟩ := exists_entryAt hp hroot hexists
  by_cases hrem : RmdRemoves db p
  · rw [h.rmdRight_removes hrem]
    constructor
    · exact fun hright => ⟨fun _ => hright, fun hno => absurd hrem hno⟩
    · exact fun hright => hright.1 hrem
  · rw [h.rmdRight_keeps hrem]
    constructor
    · exact fun hright => ⟨fun hyes => absurd hyes hrem, fun _ => hright⟩
    · exact fun hright => hright.2 hrem

/-- `RMD /a` where `/a` holds `/a/b`. -/
theorem rmdRight_iff_nonempty :
    RmdRight withAB "/a".toList ↔
      (RmdRemoves withAB "/a".toList → PathIsDir withAB "/a".toList ∧ OwnEntry withAB "/a".toList) ∧
      (¬ RmdRemoves withAB "/a".toList → ¬ EmptyDir withAB "/a".toList) :=
  rmdRight_iff canonical_a (by decide) ⟨_, rfl⟩

/-- `RMD /a` right after `MKD /a` is refused: the placeholder counts as an entry. -/
theorem mkd_rmd_fails :
    ¬ ∀ t, VfsRun (fun _ _ _ => True) (.init 0) t → ∀ p, Canonical p → p ≠ ['/'] →
      (∃ st, ask (stat p) t.db = some (some st)) → RmdRight t.db p := by
  intro hall
  have hstep : VfsStep (.init 0) 0 (.mkd pathA 1 1 0) ⟨withA, Function.update (fun _ => []) 0 []⟩ :=
    .ends rfl
  obtain ⟨r, db', hrun, hiff, -⟩ := hall _ (.step (.refl _) trivial hstep) "/a".toList canonical_a
    (by decide) ⟨_, rfl⟩
  have hrun' : run serveRedis (cmdRmd (some "/a".toList)) withA =
      .done (.line 450 "Internal error deleting the directory.") withA := rfl
  have heq := hrun'.symm.trans hrun
  rw [Outcome.done.injEq] at heq
  obtain ⟨rfl, -⟩ := heq
  have hempty : EmptyDir withA "/a".toList := by
    refine ⟨1, rfl, by decide, ?_⟩
    intro m v hv
    have hlook : (withA.dirent 1).lookup m = if (1 : ℕ) = 1 ∧ m = placeholder then some (-1)
        else none := by
      show (setEntry (setEntry (setEntry (fun _ => ∅) 0 ".foo".toList (-1)) 0 ['a'] 1) 1
        placeholder (-1) 1).lookup m = _
      rw [lookup_setEntry, setEntry_of_ne (by decide), setEntry_of_ne (by decide),
        Finmap.lookup_empty]
    rw [hlook] at hv
    split_ifs at hv with hm
    rw [Option.some.injEq] at hv
    exact ⟨hm.2, hv.symm⟩
  exact absurd (hiff.mpr hempty) (by decide)

end ClusterFtpd
